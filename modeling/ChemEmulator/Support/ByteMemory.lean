import Mathlib.Data.List.Basic
import Mathlib.Tactic.Ring

/-!
# Byte memory and strided copies

A memory block is seen from its base address as a total function from
offsets to bytes, so that reads and writes need no side condition; whether an
access stays inside the block is a statement about its offset and length.

The last section is about *strided* blocks: `n` lanes of `stride` bytes each,
filled from the left by writing one chunk into every lane at the same lane
offset.  `read_scatter` says what a lane holds after such a round.
-/

namespace ByteMemory

/-- A memory block, seen from its base address. -/
abbrev Mem := ℕ → UInt8

/-- The `n` bytes at offset `a`. -/
def read (m : Mem) (a n : ℕ) : List UInt8 :=
  (List.range n).map fun i => m (a + i)

/-- The block after `bs` has been copied to offset `a`. -/
def copy (m : Mem) (a : ℕ) (bs : List UInt8) : Mem :=
  fun x => if a ≤ x then bs[x - a]?.getD (m x) else m x

/-- A sequence of copies, each given by its offset and its bytes. -/
def copyAll (m : Mem) (ws : List (ℕ × List UInt8)) : Mem :=
  ws.foldl (fun m w => copy m w.1 w.2) m

@[simp] theorem length_read (m : Mem) (a n : ℕ) : (read m a n).length = n := by
  simp [read]

@[simp] theorem read_zero (m : Mem) (a : ℕ) : read m a 0 = [] := rfl

theorem read_add (m : Mem) (a n k : ℕ) :
    read m a (n + k) = read m a n ++ read m (a + n) k := by
  simp only [read, List.range_add, List.map_append, List.map_map]
  congr 1
  apply List.map_congr_left
  intro i _
  simp [Nat.add_assoc]

theorem read_congr {m m' : Mem} {a n : ℕ}
    (h : ∀ i < n, m (a + i) = m' (a + i)) :
    read m a n = read m' a n := by
  apply List.map_congr_left
  intro i hi
  exact h i (List.mem_range.mp hi)

theorem eq_of_read_eq {m m' : Mem} {a n : ℕ} (h : read m a n = read m' a n)
    {i : ℕ} (hi : i < n) : m (a + i) = m' (a + i) :=
  List.map_inj_left.mp h i (List.mem_range.mpr hi)

theorem read_copy_self (m : Mem) (a : ℕ) (bs : List UInt8) :
    read (copy m a bs) a bs.length = bs := by
  apply List.ext_getElem
  · simp
  · intro i _ hi
    simp [read, copy, List.getElem?_eq_getElem hi]

/-- Reading a range that the copy does not touch. -/
theorem read_copy_of_disjoint
    (m : Mem) (a : ℕ) (bs : List UInt8) {b n : ℕ}
    (h : a + bs.length ≤ b ∨ b + n ≤ a) :
    read (copy m a bs) b n = read m b n := by
  apply read_congr
  intro i hi
  by_cases ha : a ≤ b + i
  · have hlen : bs.length ≤ b + i - a := by omega
    simp [copy, ha, List.getElem?_eq_none hlen]
  · simp [copy, ha]

@[simp] theorem copyAll_nil (m : Mem) : copyAll m [] = m := rfl

theorem copyAll_append (m : Mem) (ws ws' : List (ℕ × List UInt8)) :
    copyAll m (ws ++ ws') = copyAll (copyAll m ws) ws' := by
  simp [copyAll]

theorem copyAll_concat (m : Mem) (ws : List (ℕ × List UInt8))
    (w : ℕ × List UInt8) :
    copyAll m (ws ++ [w]) = copy (copyAll m ws) w.1 w.2 := by
  simp [copyAll]

/-- Reading a range that none of the copies touches. -/
theorem read_copyAll_of_disjoint
    (m : Mem) (ws : List (ℕ × List UInt8)) {b n : ℕ}
    (h : ∀ w ∈ ws, w.1 + w.2.length ≤ b ∨ b + n ≤ w.1) :
    read (copyAll m ws) b n = read m b n := by
  induction ws generalizing m with
  | nil => rfl
  | cons w ws ih =>
      have htail : ∀ w ∈ ws, w.1 + w.2.length ≤ b ∨ b + n ≤ w.1 :=
        fun v hv => h v (List.mem_cons_of_mem _ hv)
      have hhead := h w List.mem_cons_self
      calc
        read (copyAll m (w :: ws)) b n
            = read (copyAll (copy m w.1 w.2) ws) b n := rfl
        _ = read (copy m w.1 w.2) b n := ih _ htail
        _ = read m b n := read_copy_of_disjoint m w.1 w.2 hhead

theorem copy_congr {m m' : Mem} {x : ℕ} (h : m x = m' x) (a : ℕ)
    (bs : List UInt8) : copy m a bs x = copy m' a bs x := by
  simp only [copy, h]

/-- A byte that one of the copies writes does not depend on the block. -/
theorem copyAll_congr_of_covered {m m' : Mem} {ws : List (ℕ × List UInt8)}
    {x : ℕ} (h : m x = m' x ∨ ∃ w ∈ ws, w.1 ≤ x ∧ x < w.1 + w.2.length) :
    copyAll m ws x = copyAll m' ws x := by
  induction ws generalizing m m' with
  | nil =>
      obtain heq | ⟨w, hw, -⟩ := h
      · exact heq
      · exact absurd hw List.not_mem_nil
  | cons v ws ih =>
      change copyAll (copy m v.1 v.2) ws x = copyAll (copy m' v.1 v.2) ws x
      apply ih
      obtain heq | ⟨w, hw, hle, hlt⟩ := h
      · exact Or.inl (copy_congr heq v.1 v.2)
      · obtain rfl | hmem := List.mem_cons.mp hw
        · left
          have hin : x - w.1 < w.2.length := by omega
          simp [copy, hle, List.getElem?_eq_getElem hin]
        · exact Or.inr ⟨w, hmem, hle, hlt⟩

/-- Chunks of equal length are found again at multiples of that length. -/
theorem take_drop_flatMap {f : ℕ → List UInt8} {k n c : ℕ}
    (hlen : ∀ i < n, (f i).length = k) (hc : c < n) :
    (((List.range n).flatMap f).drop (c * k)).take k = f c := by
  have hfront : ∀ m ≤ n, ((List.range m).flatMap f).length = m * k := by
    intro m hm
    induction m with
    | zero => simp
    | succ m ih =>
        rw [List.range_succ, List.flatMap_append, List.length_append,
          ih (Nat.le_of_succ_le hm)]
        simp [hlen m hm, Nat.succ_mul]
  obtain ⟨r, rfl⟩ := Nat.exists_eq_add_of_lt hc
  have hsplit : (List.range (c + r + 1)).flatMap f =
      (List.range c).flatMap f ++ (f c ++
        (List.range r).flatMap fun i => f (c + 1 + i)) := by
    rw [show c + r + 1 = c + 1 + r by omega, List.range_add, List.range_succ,
      List.flatMap_append, List.flatMap_append, List.append_assoc]
    simp [List.flatMap_map]
  rw [hsplit, List.drop_append_of_le_length (by rw [hfront c (by omega)]),
    List.drop_of_length_le (by rw [hfront c (by omega)]), List.nil_append,
    List.take_append_of_le_length (by rw [hlen c hc]),
    List.take_of_length_le (by rw [hlen c hc])]

/-! ## Strided blocks -/

/-- One round over `n` lanes: lane `c` receives `src c` at lane offset `off`. -/
def scatter (stride off : ℕ) (src : ℕ → List UInt8) (n : ℕ) :
    List (ℕ × List UInt8) :=
  (List.range n).map fun c => (c * stride + off, src c)

theorem scatter_succ (stride off : ℕ) (src : ℕ → List UInt8) (n : ℕ) :
    scatter stride off src (n + 1) =
      scatter stride off src n ++ [(n * stride + off, src n)] := by
  simp [scatter, List.range_succ]

/-- Later lanes start behind everything that earlier lanes can hold. -/
theorem lane_le {c d : ℕ} (stride : ℕ) (h : c < d) :
    c * stride + stride ≤ d * stride := by
  calc
    c * stride + stride = (c + 1) * stride := by ring
    _ ≤ d * stride := Nat.mul_le_mul_right stride h

/-- The last lane is the one that ends last. -/
theorem lanes_lt_iff {n stride width limit : ℕ} (hn : 0 < n) (hw : 0 < width) :
    (∀ c < n, ∀ i < width, c * stride + i < limit) ↔
      (n - 1) * stride + width ≤ limit := by
  constructor
  · intro h
    have hlast := h (n - 1) (by omega) (width - 1) (by omega)
    omega
  · intro h c hc i hi
    have hmono : c * stride ≤ (n - 1) * stride :=
      Nat.mul_le_mul_right stride (by omega)
    omega

/-- A lane ends before the next one begins. -/
theorem lane_lt_next_iff {stride width : ℕ} (c : ℕ) :
    (∀ i < width, c * stride + i < (c + 1) * stride) ↔ width ≤ stride := by
  rw [Nat.succ_mul]
  constructor
  · intro h
    by_contra hlt
    have hover := h stride (by omega)
    omega
  · intro h i hi
    omega

/-- A round of chunks of equal length extends every lane by its own chunk. -/
theorem read_scatter
    (m : Mem) {stride off k : ℕ} {src : ℕ → List UInt8} {n : ℕ}
    (hlen : ∀ c < n, (src c).length = k) (hk : off + k ≤ stride)
    {c : ℕ} (hc : c < n) :
    read (copyAll m (scatter stride off src n)) (c * stride) (off + k) =
      read m (c * stride) off ++ src c := by
  induction n with
  | zero => omega
  | succ n ih =>
      have hlenN : (src n).length = k := hlen n (Nat.lt_succ_self n)
      rw [scatter_succ, copyAll_concat]
      rcases Nat.lt_succ_iff_lt_or_eq.mp hc with hlt | rfl
      · -- The lane written last lies behind lane `c`.
        have hlane := lane_le stride hlt
        rw [read_copy_of_disjoint _ _ _ (Or.inr (by simp only []; omega))]
        exact ih (fun d hd => hlen d (Nat.lt_succ_of_lt hd)) hlt
      · have hbefore : read (copyAll m (scatter stride off src c))
            (c * stride) off = read m (c * stride) off := by
          apply read_copyAll_of_disjoint
          intro w hw
          obtain ⟨d, hd, rfl⟩ := List.mem_map.mp hw
          have hdc : d < c := List.mem_range.mp hd
          have hlane := lane_le stride hdc
          have hlenD := hlen d (Nat.lt_succ_of_lt hdc)
          left
          simp only [hlenD]
          omega
        rw [read_add, read_copy_of_disjoint _ _ _ (Or.inr (Nat.le_refl _)),
          hbefore]
        have hself := read_copy_self
          (copyAll m (scatter stride off src c)) (c * stride + off) (src c)
        rw [hlenN] at hself
        rw [hself]

end ByteMemory
