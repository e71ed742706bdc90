import ChemEmulator.Support.Delimited

/-!
# Requests and answers on a stream of lines

A client sends a request, ended by a delimiter, and sends nothing more until it
has got a line back.  The server collects what it reads, answers the first line
as soon as it has one and forgets what stands behind it.  Such a server drops
requests, and such a client mixes up answers, but not together: `InStep` is
what holds between the two however the stream is cut into pieces.

A client that gives up closes the connection; what it has sent may still be
answered, but the answer goes nowhere.
-/

namespace LineExchange

open Delimited

variable {α : Type*} [DecidableEq α]

/-- What the client does. -/
inductive Phase (α : Type*) where
  | idle
  | waiting (request got : List α)
  | closed
deriving DecidableEq

/-- One connection.  The last three fields only record what has happened. -/
structure Line (α : Type*) where
  phase : Phase α
  /-- On the way to the server. -/
  up : List α
  /-- What the server has read of a line. -/
  buffer : List α
  /-- On the way to the client. -/
  down : List α
  sent : List (List α)
  served : List (List α × List α)
  returned : List (List α × List α)

namespace Line

def fresh : Line α where
  phase := .idle
  up := []
  buffer := []
  down := []
  sent := []
  served := []
  returned := []

variable (d : α)

def send (l : Line α) (request : List α) : Line α :=
  { l with
    phase := .waiting request []
    up := l.up ++ (request ++ [d])
    sent := l.sent ++ [request] }

/-- The server reads some symbols, and answers if they complete a line.  The
answer is under way as a whole; a server that cannot promise that has to bound
its answers. -/
def read (l : Line α) (n : ℕ) (response : List α) : Line α :=
  let buffer := l.buffer ++ l.up.take n
  let l := { l with up := l.up.drop n }
  if d ∈ buffer then
    { l with
      buffer := []
      down := l.down ++ (response ++ [d])
      served := l.served ++ [(firstFrame d buffer, response)] }
  else { l with buffer := buffer }

/-- The client reads some symbols, and returns if they complete a line. -/
def receive (l : Line α) (request got : List α) (n : ℕ) : Line α :=
  let chunk := l.down.take n
  let got := got ++ chunk
  let l := { l with down := l.down.drop n }
  if d ∈ chunk then
    { l with phase := .idle, returned := l.returned ++ [(request, got)] }
  else { l with phase := .waiting request got }

def close (l : Line α) : Line α := { l with phase := .closed, down := [] }

end Line

variable (d : α)

/-- What the client should have got. -/
def answers (served : List (List α × List α)) : List (List α × List α) :=
  served.map fun x => (x.1, x.2 ++ [d])

/-- Where a connection can be. -/
inductive InStep (l : Line α) : Prop
  | idle (hphase : l.phase = .idle) (hup : l.up = []) (hbuffer : l.buffer = [])
      (hdown : l.down = []) (hserved : l.served.map Prod.fst = l.sent)
      (hreturned : l.returned = answers d l.served)
  /-- The server has not got all of the request. -/
  | underway (request : List α)
      (hphase : l.phase = .waiting request [] ∨ l.phase = .closed)
      (hline : l.buffer ++ l.up = request ++ [d]) (hbuffer : d ∉ l.buffer)
      (hdown : l.down = [])
      (hserved : l.sent = l.served.map Prod.fst ++ [request])
      (hreturned : l.returned = answers d l.served)
  /-- The client has not got all of the answer. -/
  | answered (request response got : List α) (before : List (List α × List α))
      (hphase : l.phase = .waiting request got) (hup : l.up = [])
      (hbuffer : l.buffer = []) (hline : got ++ l.down = response ++ [d])
      (hgot : d ∉ got) (hserved : l.served.map Prod.fst = l.sent)
      (hlast : l.served = before ++ [(request, response)])
      (hreturned : l.returned = answers d before)
  | closed (rest : List (List α × List α)) (hphase : l.phase = .closed)
      (hup : l.up = []) (hbuffer : l.buffer = [])
      (hserved : l.served.map Prod.fst = l.sent)
      (hreturned : answers d l.served = l.returned ++ rest)
      (hrest : rest.length ≤ 1)

variable {d} {l : Line α}

omit [DecidableEq α] in
theorem inStep_fresh : InStep d (Line.fresh : Line α) :=
  .idle rfl rfl rfl rfl rfl rfl

omit [DecidableEq α] in
theorem answers_concat (served : List (List α × List α))
    (request response : List α) :
    answers d (served ++ [(request, response)]) =
      answers d served ++ [(request, response ++ [d])] := by
  simp [answers]

omit [DecidableEq α] in
theorem InStep.send (h : InStep d l) (hidle : l.phase = .idle)
    (request : List α) : InStep d (l.send d request) := by
  cases h with
  | idle hphase hup hbuffer hdown hserved hreturned =>
      refine .underway request (.inl rfl) ?_ ?_ hdown ?_ hreturned
      · simp [Line.send, hup, hbuffer]
      · simp [Line.send, hbuffer]
      · rw [Line.send, hserved]
  | underway request' hphase =>
      rcases hphase with hphase | hphase <;>
        cases hidle.symm.trans hphase
  | answered request' response got before hphase =>
      cases hidle.symm.trans hphase
  | closed rest hphase => cases hidle.symm.trans hphase

/-- Nothing to read. -/
theorem read_of_nil (hup : l.up = []) (hbuffer : d ∉ l.buffer) (n : ℕ)
    (response : List α) : l.read d n response = l := by
  unfold Line.read
  rw [hup, List.take_nil, List.drop_nil, List.append_nil, if_neg hbuffer,
    ← hup]

omit [DecidableEq α] in
/-- A stream that ends with its only delimiter is complete exactly when nothing
follows. -/
theorem complete_iff {xs ys zs : List α} (h : xs ++ ys = zs ++ [d])
    (hzs : d ∉ zs) : d ∈ xs ↔ ys = [] := by
  constructor
  · intro hmem
    by_contra hne
    -- the last symbol of the stream is the delimiter, and not in `xs`
    obtain ⟨ys', y, rfl⟩ := (List.eq_nil_or_concat ys).resolve_left hne
    rw [List.concat_eq_append, ← List.append_assoc] at h
    obtain ⟨hxs, -⟩ := List.append_inj' h rfl
    exact hzs (hxs ▸ List.mem_append_left ys' hmem)
  · rintro rfl
    rw [List.append_nil] at h
    rw [h]
    simp

theorem firstFrame_concat {zs : List α} (hzs : d ∉ zs) :
    firstFrame d (zs ++ [d]) = zs := by
  rw [firstFrame_append hzs]
  simp [firstFrame]

theorem InStep.read (h : InStep d l) (hsent : ∀ q ∈ l.sent, d ∉ q) (n : ℕ)
    (response : List α) : InStep d (l.read d n response) := by
  cases h with
  | idle hphase hup hbuffer hdown hserved hreturned =>
      rw [read_of_nil hup (by simp [hbuffer])]
      exact .idle hphase hup hbuffer hdown hserved hreturned
  | underway request hphase hline hbuffer hdown hserved hreturned =>
      have hrequest : d ∉ request := hsent request (by simp [hserved])
      have hsplit : (l.buffer ++ l.up.take n) ++ l.up.drop n =
          request ++ [d] := by
        rw [List.append_assoc, List.take_append_drop, hline]
      by_cases hcomplete : d ∈ l.buffer ++ l.up.take n
      · have hrest := (complete_iff hsplit hrequest).mp hcomplete
        rw [Line.read, if_pos hcomplete, hrest, hdown]
        rw [hrest, List.append_nil] at hsplit
        rw [hsplit, firstFrame_concat hrequest]
        rcases hphase with hphase | hphase
        · refine .answered request response [] l.served hphase rfl rfl rfl
            List.not_mem_nil ?_ rfl hreturned
          simp [hserved]
        · refine .closed [(request, response ++ [d])] hphase rfl rfl ?_ ?_
            (Nat.le_refl 1)
          · simp [hserved]
          · rw [answers_concat, hreturned]
      · rw [Line.read, if_neg hcomplete]
        exact .underway request hphase hsplit hcomplete hdown hserved
          hreturned
  | answered request response' got before hphase hup hbuffer hline hgot hserved
      hlast hreturned =>
      rw [read_of_nil hup (by simp [hbuffer])]
      exact .answered request response' got before hphase hup hbuffer hline
        hgot hserved hlast hreturned
  | closed rest hphase hup hbuffer hserved hreturned hrest =>
      rw [read_of_nil hup (by simp [hbuffer])]
      exact .closed rest hphase hup hbuffer hserved hreturned hrest

theorem InStep.receive (h : InStep d l) {request got : List α}
    (hwaiting : l.phase = .waiting request got)
    (hserved' : ∀ x ∈ l.served, d ∉ x.2) (n : ℕ) :
    InStep d (l.receive d request got n) := by
  cases h with
  | idle hphase => cases hwaiting.symm.trans hphase
  | closed rest hphase => cases hwaiting.symm.trans hphase
  | underway request' hphase hline hbuffer hdown hserved hreturned =>
      rcases hphase with hphase | hphase
      · cases hwaiting.symm.trans hphase
        unfold Line.receive
        rw [hdown]
        simp only [List.take_nil, List.not_mem_nil, if_false, List.append_nil]
        exact .underway request (.inl rfl) hline hbuffer List.drop_nil hserved
          hreturned
      · cases hwaiting.symm.trans hphase
  | answered request' response got' before hphase hup hbuffer hline hgot hserved
      hlast hreturned =>
      cases hwaiting.symm.trans hphase
      have hresponse : d ∉ response :=
        hserved' (request, response) (by simp [hlast])
      have hsplit : (got ++ l.down.take n) ++ l.down.drop n =
          response ++ [d] := by
        rw [List.append_assoc, List.take_append_drop, hline]
      have hmem : d ∈ got ++ l.down.take n ↔ d ∈ l.down.take n := by
        simp [hgot]
      by_cases hcomplete : d ∈ l.down.take n
      · have hrest := (complete_iff hsplit hresponse).mp (hmem.mpr hcomplete)
        rw [Line.receive, if_pos hcomplete, hrest]
        rw [hrest, List.append_nil] at hsplit
        rw [hsplit]
        refine .idle rfl hup hbuffer rfl hserved ?_
        rw [hlast, answers_concat, hreturned]
      · rw [Line.receive, if_neg hcomplete]
        exact .answered request response _ before rfl hup hbuffer hsplit
          (hmem.not.mpr hcomplete) hserved hlast hreturned

omit [DecidableEq α] in
theorem InStep.close (h : InStep d l) (hopen : l.phase ≠ .closed) :
    InStep d l.close := by
  cases h with
  | idle hphase hup hbuffer _ hserved hreturned =>
      exact .closed [] rfl hup hbuffer hserved (by simp [Line.close, hreturned])
        (Nat.zero_le 1)
  | underway request hphase hline hbuffer _ hserved hreturned =>
      exact .underway request (.inr rfl) hline hbuffer rfl hserved hreturned
  | answered request response got before hphase hup hbuffer hline hgot hserved
      hlast hreturned =>
      refine .closed [(request, response ++ [d])] rfl hup hbuffer hserved ?_
        (Nat.le_refl 1)
      simp [Line.close, hlast, answers_concat, hreturned]
  | closed rest hphase => exact absurd hphase hopen

/-! ## What the client can rely on -/

omit [DecidableEq α] in
/-- The requests are handled in order, all but perhaps the last one. -/
theorem InStep.handled (h : InStep d l) :
    l.sent = l.served.map Prod.fst ∨
      ∃ request, l.sent = l.served.map Prod.fst ++ [request] := by
  cases h with
  | idle _ _ _ _ hserved => exact Or.inl hserved.symm
  | underway request _ _ _ _ hserved => exact Or.inr ⟨request, hserved⟩
  | answered _ _ _ _ _ _ _ _ _ hserved => exact Or.inl hserved.symm
  | closed _ _ _ _ hserved => exact Or.inl hserved.symm

omit [DecidableEq α] in
/-- A request that has returned has got its own answer. -/
theorem InStep.got (h : InStep d l) :
    ∃ rest, answers d l.served = l.returned ++ rest ∧ rest.length ≤ 1 := by
  cases h with
  | idle _ _ _ _ _ hreturned => exact ⟨[], by simp [hreturned], Nat.zero_le 1⟩
  | underway _ _ _ _ _ _ hreturned =>
      exact ⟨[], by simp [hreturned], Nat.zero_le 1⟩
  | answered request response _ _ _ _ _ _ _ _ hlast hreturned =>
      exact ⟨[(request, response ++ [d])],
        by rw [hlast, answers_concat, hreturned], Nat.le_refl 1⟩
  | closed rest _ _ _ _ hreturned hrest => exact ⟨rest, hreturned, hrest⟩

omit [DecidableEq α] in
/-- Between two requests nothing is left over. -/
theorem InStep.settled (h : InStep d l) (hidle : l.phase = .idle) :
    l.sent = l.served.map Prod.fst ∧ l.returned = answers d l.served := by
  cases h with
  | idle _ _ _ _ hserved hreturned => exact ⟨hserved.symm, hreturned⟩
  | underway _ hphase =>
      rcases hphase with hphase | hphase <;>
        cases hidle.symm.trans hphase
  | answered _ _ _ _ hphase => cases hidle.symm.trans hphase
  | closed _ hphase => cases hidle.symm.trans hphase

end LineExchange
