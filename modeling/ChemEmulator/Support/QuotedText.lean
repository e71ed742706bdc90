import Mathlib.Data.List.Basic
import Mathlib.Data.List.TakeWhile

/-!
# Text with quoted literals

A language in which literals stand between quotes and a quote inside a literal
is written twice, as in SQL.  Text is cut into tokens: literals with the values
that they denote, and single characters.  Nothing is lost: printing the tokens
gives the text again (`print_of_lex`), so that there is one text for every
sequence of tokens (`lex_eq_some_iff`).

A program that puts quotes around its values and does not double those inside
writes a text that is shorter than it has to be, as soon as there is one to be
doubled.  Such a text denotes what is meant exactly if there is none
(`denotesSole_iff`).
-/

namespace QuotedText

/-- A character outside the literals, or a literal and its value. -/
inductive Token (α : Type*) where
  | char (c : α)
  | literal (value : List α)
deriving DecidableEq

/-- What has been read when the next character comes: inside a literal, or
behind a quote that may end it, the value so far. -/
inductive Mode (α : Type*) where
  | outside
  | inside (value : List α)
  | closing (value : List α)

variable {α : Type*} (quote : α)

/-- The text with quotes around the values, whatever they are. -/
def printRaw : List (Token α) → List α
  | [] => []
  | .char c :: ts => c :: printRaw ts
  | .literal v :: ts => quote :: (v ++ quote :: printRaw ts)

/-- Quotes stand around literals only, and between two literals there is
something else. -/
def WellFormed : List (Token α) → Prop
  | [] => True
  | .char c :: ts => c ≠ quote ∧ WellFormed ts
  | .literal _ :: ts => (∀ v, ts.head? ≠ some (.literal v)) ∧ WellFormed ts

section Lexing

variable [DecidableEq α]

def lex : Mode α → List α → Option (List (Token α))
  | .outside, [] => some []
  | .outside, c :: cs =>
      if c = quote then lex (.inside []) cs
      else (lex .outside cs).map (.char c :: ·)
  | .inside _, [] => none
  | .inside v, c :: cs =>
      if c = quote then lex (.closing v) cs else lex (.inside (v ++ [c])) cs
  | .closing v, [] => some [.literal v]
  | .closing v, c :: cs =>
      if c = quote then lex (.inside (v ++ [c])) cs
      else (lex .outside cs).map fun ts => .literal v :: .char c :: ts

/-- Every quote twice. -/
def escape : List α → List α
  | [] => []
  | c :: cs => if c = quote then c :: c :: escape cs else c :: escape cs

/-- The text of tokens. -/
def print : List (Token α) → List α
  | [] => []
  | .char c :: ts => c :: print ts
  | .literal v :: ts => quote :: (escape quote v ++ quote :: print ts)

variable {quote}

/-! ## Printing and lexing -/

theorem escape_append (v w : List α) :
    escape quote (v ++ w) = escape quote v ++ escape quote w := by
  induction v with
  | nil => rfl
  | cons c v ih =>
      rw [List.cons_append, escape, escape, ih]
      split_ifs <;> rfl

theorem print_append (ts ts' : List (Token α)) :
    print quote (ts ++ ts') = print quote ts ++ print quote ts' := by
  induction ts with
  | nil => rfl
  | cons t ts ih =>
      cases t with
      | char c => simp only [List.cons_append, print, ih]
      | literal v => simp only [List.cons_append, List.append_assoc, print, ih]

/-- The part of the token that has been read. -/
def opened (quote : α) : Mode α → List α
  | .outside => []
  | .inside v => quote :: escape quote v
  | .closing v => quote :: (escape quote v ++ [quote])

/-- The tokens are a reading of the whole text. -/
theorem print_of_lex {mode : Mode α} {text : List α} {ts : List (Token α)}
    (h : lex quote mode text = some ts) :
    print quote ts = opened quote mode ++ text := by
  -- A quote changes the mode only; what it stands for is in `opened`.
  induction text generalizing mode ts with
  | nil =>
      cases mode with
      | outside =>
          obtain rfl := Option.some.inj h
          rfl
      | inside v => cases h
      | closing v =>
          obtain rfl := Option.some.inj h
          exact (List.append_nil _).symm
  | cons c text ih =>
      cases mode with
      | outside =>
          rw [lex] at h
          split_ifs at h with hc
          · rw [ih h, hc]
            rfl
          · obtain ⟨ts', hts', rfl⟩ := Option.map_eq_some_iff.mp h
            rw [print, ih hts']
            rfl
      | inside v =>
          rw [lex] at h
          split_ifs at h with hc
          · rw [ih h, hc]
            simp [opened]
          · rw [ih h]
            simp [opened, escape_append, escape, hc]
      | closing v =>
          rw [lex] at h
          split_ifs at h with hc
          · rw [ih h, hc]
            simp [opened, escape_append, escape]
          · obtain ⟨ts', hts', rfl⟩ := Option.map_eq_some_iff.mp h
            rw [print, print, ih hts']
            simp [opened]

/-- Inside a literal, an escaped value is read to its end. -/
theorem lex_inside_escape (acc v rest : List α) :
    lex quote (.inside acc) (escape quote v ++ rest) =
      lex quote (.inside (acc ++ v)) rest := by
  induction v generalizing acc with
  | nil => rw [escape, List.nil_append, List.append_nil]
  | cons c v ih =>
      rw [escape]
      split_ifs with hc
      · rw [List.cons_append, List.cons_append, lex, if_pos hc, lex, if_pos hc,
          ih, List.append_assoc, List.singleton_append]
      · rw [List.cons_append, lex, if_neg hc, ih, List.append_assoc,
          List.singleton_append]

/-- A literal ends where no other quote follows. -/
theorem lex_closing (v : List α) {text : List α}
    (h : text.head? ≠ some quote) :
    lex quote (.closing v) text =
      (lex quote .outside text).map (.literal v :: ·) := by
  cases text with
  | nil => rfl
  | cons c text =>
      have hc : c ≠ quote := fun hc => h (congrArg some hc)
      rw [lex, if_neg hc, lex, if_neg hc, Option.map_map]
      rfl

theorem head?_print {ts : List (Token α)} (hts : WellFormed quote ts)
    (hhead : ∀ v, ts.head? ≠ some (.literal v)) :
    (print quote ts).head? ≠ some quote := by
  cases ts with
  | nil => exact Option.some_ne_none quote |>.symm
  | cons t ts =>
      cases t with
      | char c => exact fun h => hts.1 (Option.some.inj h)
      | literal v => exact absurd rfl (hhead v)

theorem lex_print {ts : List (Token α)} (hts : WellFormed quote ts) :
    lex quote .outside (print quote ts) = some ts := by
  induction ts with
  | nil => rfl
  | cons t ts ih =>
      cases t with
      | char c =>
          rw [print, lex, if_neg hts.1, ih hts.2]
          rfl
      | literal v =>
          rw [print, lex, if_pos rfl, lex_inside_escape, List.nil_append, lex,
            if_pos rfl, lex_closing v (head?_print hts.2 hts.1), ih hts.2]
          rfl

/-- There is one text for every sequence of tokens. -/
theorem lex_eq_some_iff {ts : List (Token α)} (hts : WellFormed quote ts)
    (text : List α) :
    lex quote .outside text = some ts ↔ text = print quote ts := by
  constructor
  · intro h
    exact (print_of_lex h).symm
  · rintro rfl
    exact lex_print hts

variable (quote) in
theorem print_ne_nil {ts : List (Token α)} (hts : ts ≠ []) :
    print quote ts ≠ [] := by
  cases ts with
  | nil => exact absurd rfl hts
  | cons t ts =>
      cases t with
      | char c => exact List.cons_ne_nil _ _
      | literal v => exact List.cons_ne_nil _ _

/-! ## Quotes that are not doubled -/

theorem escape_of_not_mem {v : List α} (h : quote ∉ v) :
    escape quote v = v := by
  induction v with
  | nil => rfl
  | cons c v ih =>
      have hc : c ≠ quote := (List.ne_of_not_mem_cons h).symm
      rw [escape, if_neg hc, ih (List.not_mem_of_not_mem_cons h)]

variable (quote) in
theorem length_le_escape (v : List α) : v.length ≤ (escape quote v).length := by
  induction v with
  | nil => exact Nat.le_refl _
  | cons c v ih =>
      rw [escape]
      split_ifs
      · simp only [List.length_cons]
        omega
      · simp only [List.length_cons]
        omega

variable (quote) in
/-- Only a value without quotes is as long as its text. -/
theorem not_mem_of_escape_le {v : List α}
    (h : (escape quote v).length ≤ v.length) : quote ∉ v := by
  induction v with
  | nil => exact List.not_mem_nil
  | cons c v ih =>
      have hle := length_le_escape quote v
      rw [escape] at h
      split_ifs at h with hc
      · simp only [List.length_cons] at h
        omega
      · simp only [List.length_cons] at h
        exact List.not_mem_cons_of_ne_of_not_mem (Ne.symm hc) (ih (by omega))

variable (quote) in
/-- No literal has a quote in it. -/
def QuoteFree (ts : List (Token α)) : Prop :=
  ∀ v, .literal v ∈ ts → quote ∉ v

theorem printRaw_eq {ts : List (Token α)} (h : QuoteFree quote ts) :
    printRaw quote ts = print quote ts := by
  induction ts with
  | nil => rfl
  | cons t ts ih =>
      have hts := ih fun v hv => h v (List.mem_cons_of_mem t hv)
      cases t with
      | char c => rw [printRaw, print, hts]
      | literal v =>
          rw [printRaw, print, hts, escape_of_not_mem (h v List.mem_cons_self)]

variable (quote) in
theorem length_printRaw_le (ts : List (Token α)) :
    (printRaw quote ts).length ≤ (print quote ts).length := by
  induction ts with
  | nil => exact Nat.le_refl _
  | cons t ts ih =>
      cases t with
      | char c => exact Nat.succ_le_succ ih
      | literal v =>
          have hle := length_le_escape quote v
          simp only [printRaw, print, List.length_cons, List.length_append]
          omega

/-- Only literals without quotes have a text as short as that. -/
theorem quoteFree_of_length_le {ts : List (Token α)}
    (h : (print quote ts).length ≤ (printRaw quote ts).length) :
    QuoteFree quote ts := by
  induction ts with
  | nil => exact fun v hv => absurd hv List.not_mem_nil
  | cons t ts ih =>
      have hts := length_printRaw_le quote ts
      cases t with
      | char c =>
          intro v hv
          refine ih (Nat.le_of_succ_le_succ h) v ?_
          simpa using hv
      | literal w =>
          have hle := length_le_escape quote w
          simp only [printRaw, print, List.length_cons, List.length_append] at h
          intro v hv
          rcases List.mem_cons.mp hv with heq | hv
          · obtain rfl := Token.literal.inj heq
            exact not_mem_of_escape_le quote (by omega)
          · exact ih (by omega) v hv

end Lexing

/-! ## Statements

A statement is assembled from fixed text and from values.  Statements end at a
separator, and text is read up to the first character that ends a string. -/

/-- The characters with a meaning.  Idle ones may stand behind a statement. -/
structure Lexicon (α : Type*) where
  quote : α
  nul : α
  separator : α
  idle : α → Prop
  nul_ne : nul ≠ quote
  separator_ne : separator ≠ quote
  separator_ne_nul : separator ≠ nul
  idle_separator : idle separator

variable (L : Lexicon α)

/-- What a statement is made of apart from its values. -/
structure Fixed (body : List (Token α)) : Prop where
  wellFormed : WellFormed L.quote body
  outside : ∀ c, .char c ∈ body → c ≠ L.nul ∧ c ≠ L.separator

/-- A value that can stand between quotes as it is. -/
def Plain (v : List α) : Prop := L.quote ∉ v ∧ L.nul ∉ v

/-- Text without a character that has a meaning. -/
def Neutral (text : List α) : Prop :=
  ∀ c ∈ text, c ≠ L.quote ∧ c ≠ L.nul ∧ c ≠ L.separator

/-- Text between the values. -/
def chars (text : List α) : List (Token α) := text.map .char

/-- The text before the first value, and each value with the text behind it. -/
def assemble (head : List α) (holes : List (List α × List α)) :
    List (Token α) :=
  chars head ++ holes.flatMap fun hole => .literal hole.1 :: chars hole.2

/-- Between two values there is some text. -/
def Separated : List (List α × List α) → Prop
  | [] => True
  | [_] => True
  | hole :: hole' :: holes => hole.2 ≠ [] ∧ Separated (hole' :: holes)

variable {quote} {L}

theorem mem_printRaw {ts : List (Token α)} {c : α}
    (hc : c ∈ printRaw quote ts) :
    c = quote ∨ .char c ∈ ts ∨ ∃ v, .literal v ∈ ts ∧ c ∈ v := by
  induction ts with
  | nil => exact absurd hc List.not_mem_nil
  | cons t ts ih =>
      cases t with
      | char d =>
          rw [printRaw, List.mem_cons] at hc
          grind
      | literal w =>
          rw [printRaw, List.mem_cons, List.mem_append, List.mem_cons] at hc
          grind

variable (quote) in
theorem mem_printRaw_of_literal {ts : List (Token α)} {v : List α}
    (hv : .literal v ∈ ts) {c : α} (hc : c ∈ v) : c ∈ printRaw quote ts := by
  induction ts with
  | nil => exact absurd hv List.not_mem_nil
  | cons t ts ih =>
      cases t with
      | char d =>
          rw [printRaw]
          exact List.mem_cons_of_mem d (ih (by simpa using hv))
      | literal w =>
          rw [printRaw, List.mem_cons, List.mem_append, List.mem_cons]
          rcases List.mem_cons.mp hv with heq | hv
          · obtain rfl := Token.literal.inj heq
            exact .inr (.inl hc)
          · exact .inr (.inr (.inr (ih hv)))

theorem wellFormed_append_char {ts : List (Token α)}
    (hts : WellFormed quote ts) {c : α} (hc : c ≠ quote) :
    WellFormed quote (ts ++ [.char c]) := by
  induction ts with
  | nil => exact ⟨hc, trivial⟩
  | cons t ts ih =>
      cases t with
      | char d => exact ⟨hts.1, ih hts.2⟩
      | literal v =>
          refine ⟨fun w => ?_, ih hts.2⟩
          cases ts with
          | nil => exact fun h => nomatch Option.some.inj h
          | cons t ts => exact hts.1 w

theorem printRaw_append (ts ts' : List (Token α)) :
    printRaw quote (ts ++ ts') = printRaw quote ts ++ printRaw quote ts' := by
  induction ts with
  | nil => rfl
  | cons t ts ih =>
      cases t with
      | char c => simp only [List.cons_append, printRaw, ih]
      | literal v =>
          simp only [List.cons_append, List.append_assoc, printRaw, ih]

theorem printRaw_chars (text : List α) :
    printRaw quote (chars text) = text := by
  induction text with
  | nil => rfl
  | cons c text ih => exact congrArg (c :: ·) ih

theorem printRaw_assemble (head : List α) (holes : List (List α × List α)) :
    printRaw quote (assemble head holes) =
      head ++ holes.flatMap fun hole =>
        quote :: (hole.1 ++ quote :: hole.2) := by
  rw [assemble, printRaw_append, printRaw_chars]
  congr 1
  induction holes with
  | nil => rfl
  | cons hole holes ih =>
      rw [List.flatMap_cons, printRaw_append, ih, List.flatMap_cons, printRaw,
        printRaw_chars]

theorem literal_mem_assemble {head : List α} {holes : List (List α × List α)}
    {v : List α} :
    .literal v ∈ assemble head holes ↔ v ∈ holes.map Prod.fst := by
  simp [assemble, chars, eq_comm]

theorem fixed_chars_append {text : List α}
    (htext : Neutral L text) {body : List (Token α)} (hbody : Fixed L body) :
    Fixed L (chars text ++ body) := by
  induction text with
  | nil => exact hbody
  | cons c text ih =>
      obtain ⟨hc, htext⟩ := List.forall_mem_cons.mp htext
      obtain ⟨hwell, hchars⟩ := ih htext
      refine ⟨⟨hc.1, hwell⟩, ?_⟩
      intro d hd
      rcases List.mem_cons.mp hd with heq | hd
      · obtain rfl := Token.char.inj heq
        exact hc.2
      · exact hchars d hd

theorem fixed_literal_cons {body : List (Token α)}
    (hbody : Fixed L body) (hhead : ∀ v, body.head? ≠ some (.literal v))
    (v : List α) : Fixed L (.literal v :: body) where
  wellFormed := ⟨hhead, hbody.wellFormed⟩
  outside c hc := hbody.outside c (by simpa using hc)

theorem fixed_assemble {head : List α}
    {holes : List (List α × List α)} (hhead : Neutral L head)
    (hholes : ∀ hole ∈ holes, Neutral L hole.2) (hsep : Separated holes) :
    Fixed L (assemble head holes) := by
  refine fixed_chars_append hhead ?_
  induction holes with
  | nil => exact ⟨trivial, fun c hc => absurd hc List.not_mem_nil⟩
  | cons hole holes ih =>
      obtain ⟨hhole, hholes⟩ := List.forall_mem_cons.mp hholes
      have hrest : Separated holes := by
        cases holes with
        | nil => trivial
        | cons hole' holes => exact hsep.2
      have hbehind := fixed_chars_append hhole (ih hholes hrest)
      refine fixed_literal_cons hbehind ?_ _
      intro v
      cases htext : hole.2 with
      | cons c text => exact fun h => nomatch Option.some.inj h
      | nil =>
          cases holes with
          | nil => exact fun h => nomatch h
          | cons hole' holes => exact absurd htext hsep.1

/-! ## A single statement -/

section Sole

variable [DecidableEq α]

variable (L) in
/-- The tokens up to the first separator are `body`, and the ones behind them
are idle. -/
structure Sole (body ts : List (Token α)) : Prop where
  body : ts.takeWhile (· ≠ .char L.separator) = body
  rest : ∀ t ∈ ts.dropWhile (· ≠ .char L.separator),
    ∃ c, t = .char c ∧ L.idle c

variable (L) in
/-- The text, as far as it is read, denotes the statement and no other one. -/
def DenotesSole (text : List α) (body : List (Token α)) : Prop :=
  ∃ ts, lex L.quote .outside (text.takeWhile (· ≠ L.nul)) = some ts ∧
    Sole L body ts

variable {body : List (Token α)} {tail : List α}

/-- No token of a statement is a separator. -/
theorem Fixed.ne_separator (hbody : Fixed L body) :
    ∀ t ∈ body, decide (t ≠ .char L.separator) = true := by
  intro t ht
  refine decide_eq_true ?_
  rintro rfl
  exact (hbody.outside L.separator ht).2 rfl

/-- With plain values all of the text is read. -/
theorem Fixed.ne_nul (hbody : Fixed L body)
    (hplain : ∀ v, .literal v ∈ body → Plain L v) :
    ∀ c ∈ printRaw L.quote body, decide (c ≠ L.nul) = true := by
  intro c hc
  refine decide_eq_true ?_
  rintro rfl
  obtain hc | hc | ⟨v, hv, hc⟩ := mem_printRaw hc
  · exact L.nul_ne hc
  · exact (hbody.outside L.nul hc).1 rfl
  · exact (hplain v hv).2 hc

/-- Plain values are what the statement gets. -/
theorem denotesSole_of_plain (hbody : Fixed L body)
    (htail : tail = [] ∨ tail = [L.separator])
    (hplain : ∀ v, .literal v ∈ body → Plain L v) :
    DenotesSole L (printRaw L.quote body ++ tail) body := by
  have hraw : printRaw L.quote body = print L.quote body :=
    printRaw_eq fun v hv => (hplain v hv).1
  have hread := hbody.ne_nul hplain
  have hbefore := hbody.ne_separator
  rcases htail with rfl | rfl
  · refine ⟨body, ?_, ?_, ?_⟩
    · rw [List.append_nil, List.takeWhile_eq_self_iff.mpr hread]
      exact (lex_eq_some_iff hbody.wellFormed _).mpr hraw
    · exact List.takeWhile_eq_self_iff.mpr hbefore
    · rw [List.dropWhile_eq_nil_iff.mpr hbefore]
      exact fun t ht => absurd ht List.not_mem_nil
  · refine ⟨body ++ [.char L.separator], ?_, ?_, ?_⟩
    · have htext : printRaw L.quote body ++ [L.separator] =
          print L.quote (body ++ [.char L.separator]) := by
        rw [print_append, hraw]
        rfl
      have hall : ∀ c ∈ printRaw L.quote body ++ [L.separator],
          decide (c ≠ L.nul) = true := by
        intro c hc
        rcases List.mem_append.mp hc with hc | hc
        · exact hread c hc
        · obtain rfl := List.mem_singleton.mp hc
          exact decide_eq_true L.separator_ne_nul
      rw [List.takeWhile_eq_self_iff.mpr hall]
      exact (lex_eq_some_iff
        (wellFormed_append_char hbody.wellFormed L.separator_ne) _).mpr htext
    · rw [List.takeWhile_append_of_pos hbefore]
      simp
    · rw [List.dropWhile_append_of_pos hbefore]
      intro t ht
      refine ⟨L.separator, ?_, L.idle_separator⟩
      simpa using ht

/-- The text of a statement does not end in a separator. -/
theorem Fixed.print_ne (hbody : Fixed L body) (text : List α) :
    print L.quote body ≠ text ++ [L.separator] := by
  intro h
  obtain rfl | ⟨body, t, rfl⟩ := List.eq_nil_or_concat' body
  · exact absurd h.symm (List.append_ne_nil_of_right_ne_nil _ (by simp))
  · rw [print_append] at h
    cases t with
    | char c =>
        have hlast : [c] = [L.separator] := (List.append_inj' h rfl).2
        obtain rfl := List.singleton_inj.mp hlast
        exact (hbody.outside _ (by simp)).2 rfl
    | literal v =>
        have hsplit : print L.quote [.literal v] =
            L.quote :: escape L.quote v ++ [L.quote] := rfl
        rw [hsplit, ← List.append_assoc] at h
        have hlast : [L.quote] = [L.separator] := (List.append_inj' h rfl).2
        exact L.separator_ne (List.singleton_inj.mp hlast).symm

/-- A text that denotes its statement is as long as it has to be: what is read
is no longer than the text, and at most the separator of it is no part of the
statement. -/
theorem DenotesSole.length_le (hbody : Fixed L body)
    (htail : tail = [] ∨ tail = [L.separator]) {ts : List (Token α)}
    (hcut : print L.quote body ++ print L.quote ts <+:
      printRaw L.quote body ++ tail) :
    (print L.quote body).length ≤ (printRaw L.quote body).length := by
  have hle := hcut.length_le
  have htail' : tail.length ≤ 1 := by
    rcases htail with rfl | rfl
    · exact Nat.zero_le 1
    · exact Nat.le_refl 1
  rw [List.length_append, List.length_append] at hle
  by_cases hts : ts = []
  · -- Nothing follows the statement, so the separator has not been read.
    by_contra hlt
    rw [hts, print, List.append_nil] at hcut
    rw [hts, print, List.length_nil] at hle
    have hsame := hcut.eq_of_length_le (by
      rw [List.length_append]
      omega)
    rcases htail with rfl | rfl
    · rw [List.append_nil] at hsame
      exact hlt (Nat.le_of_eq (congrArg List.length hsame))
    · exact hbody.print_ne _ hsame
  · have hsome := List.length_pos_iff.mpr (print_ne_nil L.quote hts)
    omega

/-- A text that denotes its statement has plain values only. -/
theorem DenotesSole.plain (hbody : Fixed L body)
    (htail : tail = [] ∨ tail = [L.separator])
    (h : DenotesSole L (printRaw L.quote body ++ tail) body) {v : List α}
    (hv : .literal v ∈ body) : Plain L v := by
  obtain ⟨ts, hlex, hsole⟩ := h
  have hts : ts = body ++ ts.dropWhile (· ≠ .char L.separator) := by
    rw [← hsole.body, List.takeWhile_append_dropWhile]
  have hprint := print_of_lex hlex
  rw [hts, print_append, opened, List.nil_append] at hprint
  have hcut := hprint ▸ List.takeWhile_prefix (· ≠ L.nul)
  have hfree := quoteFree_of_length_le (DenotesSole.length_le hbody htail hcut)
  refine ⟨hfree v hv, fun hnul => ?_⟩
  have hmem := mem_printRaw_of_literal L.quote hv hnul
  rw [printRaw_eq hfree] at hmem
  have hread : L.nul ∈
      (printRaw L.quote body ++ tail).takeWhile (· ≠ L.nul) :=
    hprint ▸ List.mem_append_left _ hmem
  have hne := List.mem_takeWhile_imp hread
  simp at hne

/-- A text with its values between quotes denotes its statement exactly if the
values are plain. -/
theorem denotesSole_iff (hbody : Fixed L body)
    (htail : tail = [] ∨ tail = [L.separator]) :
    DenotesSole L (printRaw L.quote body ++ tail) body ↔
      ∀ v, .literal v ∈ body → Plain L v :=
  ⟨fun h _ hv => h.plain hbody htail hv, denotesSole_of_plain hbody htail⟩

/-- A statement assembled from values between quotes denotes what is meant
exactly if all the values are plain. -/
theorem denotesSole_assemble_iff {head : List α}
    {holes : List (List α × List α)} (hhead : Neutral L head)
    (hholes : ∀ hole ∈ holes, Neutral L hole.2) (hsep : Separated holes)
    (htail : tail = [] ∨ tail = [L.separator]) :
    DenotesSole L (printRaw L.quote (assemble head holes) ++ tail)
        (assemble head holes) ↔ ∀ v ∈ holes.map Prod.fst, Plain L v := by
  rw [denotesSole_iff (fixed_assemble hhead hholes hsep) htail]
  simp only [literal_mem_assemble]

end Sole

end QuotedText
