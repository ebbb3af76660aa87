import DocFilter.Error
import DocFilter.Value.Printer
import Mathlib.Tactic.SplitIfs

/-!
# Texts on one line

A text is **on one line** if it has no line feed (`Text.OneLine`). A text
that is put together is on one line if its parts are, so that it comes
down to the parts that are not fixed: numbers, which have digits and a few
marks and signs, and texts of the user, where these are quoted. Quoting
escapes a line feed, in documents as in messages, and so the compact form
of any value is on one line, whatever texts and keys the value has
(`Document.oneLine_render`).
-/

namespace DocFilter

namespace Text

/-- **A text on one line.** -/
def OneLine (s : String) : Prop :=
  '\n' ∉ s.toList

instance (s : String) : Decidable (OneLine s) :=
  inferInstanceAs (Decidable (¬ '\n' ∈ s.toList))

theorem oneLine_append {s t : String} : OneLine (s ++ t) ↔ OneLine s ∧ OneLine t := by
  simp [OneLine, not_or]

theorem OneLine.append {s t : String} (hs : OneLine s) (ht : OneLine t) : OneLine (s ++ t) :=
  oneLine_append.mpr ⟨hs, ht⟩

theorem oneLine_ofList {cs : List Char} : OneLine (String.ofList cs) ↔ '\n' ∉ cs := by
  rw [OneLine, String.toList_ofList]

end Text

/-! ## Numbers -/

namespace Decimal

/-- Digits are no line feeds, in any base. -/
theorem digitChar_ne_newline (n : Nat) : n.digitChar ≠ '\n' := by
  grind [Nat.digitChar]

theorem newline_not_mem_toDigits (base n : Nat) : '\n' ∉ Nat.toDigits base n := by
  have hcore : ∀ (fuel n : Nat) (ds : List Char), '\n' ∉ ds →
      '\n' ∉ Nat.toDigitsCore base fuel n ds := by
    intro fuel
    induction fuel with
    | zero => exact fun n ds h => h
    | succ fuel ih =>
      intro n ds h
      have hcons : '\n' ∉ (n % base).digitChar :: ds := by
        simp [h, Ne.symm (digitChar_ne_newline (n % base))]
      rw [Nat.toDigitsCore]
      split
      · exact hcons
      · exact ih _ _ hcons
  exact hcore _ _ _ (by simp)

theorem newline_not_mem_intChars (n : Int) : '\n' ∉ intChars n := by
  unfold intChars
  rw [List.mem_append, not_or]
  refine ⟨?_, newline_not_mem_toDigits 10 n.natAbs⟩
  split <;> decide

theorem oneLine_natText (n : Nat) : Text.OneLine (natText n) :=
  Text.oneLine_ofList.mpr (newline_not_mem_toDigits 10 n)

namespace Layout

variable (l : Layout) {digits : List Char}

theorem newline_not_mem_positionalChars (h : '\n' ∉ digits) (scale : Int) :
    '\n' ∉ l.positionalChars digits scale := by
  have hzeros : ∀ n, '\n' ∉ List.replicate n '0' := fun n hn =>
    absurd (List.eq_of_mem_replicate hn) (by decide)
  unfold positionalChars
  split
  · simp only [List.mem_append, not_or]
    refine ⟨⟨h, hzeros _⟩, ?_⟩
    split <;> decide
  · have hpadded : ∀ n, '\n' ∉ List.replicate n '0' ++ digits := fun n hn =>
      (List.mem_append.mp hn).elim (hzeros n) h
    simp only [List.mem_append, List.mem_cons, not_or]
    exact ⟨fun hmem => hpadded _ (List.mem_of_mem_take hmem), by decide,
      fun hmem => hpadded _ (List.mem_of_mem_drop hmem)⟩

theorem newline_not_mem_scientificChars (h : '\n' ∉ digits) (exponent : Int) :
    '\n' ∉ l.scientificChars digits exponent := by
  unfold scientificChars
  simp only [List.mem_append, List.mem_cons, not_or]
  refine ⟨⟨?_, by decide, ?_⟩, newline_not_mem_toDigits 10 _⟩
  · split
    · exact h
    · exact h
    · simp only [List.mem_cons, not_or] at h ⊢
      exact ⟨h.1, by decide, h.2⟩
  · split
    · decide
    · split <;> decide

/-- **A double is written on one line**, in any layout. -/
theorem oneLine_write (d : Double) : Text.OneLine (l.write d) := by
  cases d with
  | finite negative rank =>
    rw [write, Text.oneLine_ofList, List.mem_append, not_or]
    constructor
    · split <;> decide
    · unfold magnitudeChars
      split
      · exact l.newline_not_mem_positionalChars (by decide) 0
      · have hdigits := newline_not_mem_toDigits 10 (shortest l.tie rank).digits
        dsimp only
        split_ifs
        · exact l.newline_not_mem_positionalChars hdigits _
        · exact l.newline_not_mem_scientificChars hdigits _
  | infinity negative =>
    rw [write]
    cases negative <;> decide
  | nan =>
    rw [write]
    decide

end Layout

end Decimal

/-! ## Quoted text -/

/-- **What is escaped character by character has no line feed**, if each
character is written without one. -/
theorem newline_not_mem_flatMap {f : Char → List Char} (h : ∀ c, '\n' ∉ f c) (cs : List Char) :
    '\n' ∉ cs.flatMap f := by
  rw [List.mem_flatMap]
  rintro ⟨c, -, hc⟩
  exact h c hc

/-- Messages write a character without a line feed. -/
theorem Text.newline_not_mem_quoteChar (c : Char) : '\n' ∉ quoteChar c := by
  unfold quoteChar
  split
  case h_7 hnewline _ =>
    split
    · rw [List.mem_singleton]
      exact Ne.symm hnewline
    · simp [hexDigits, Decimal.newline_not_mem_toDigits]
  all_goals decide

/-- **A quoted text is on one line.** -/
theorem Text.oneLine_quoted (s : String) : OneLine (quoted s) := by
  rw [quoted, oneLine_ofList, List.mem_append, List.mem_append, not_or, not_or]
  exact ⟨⟨by decide, newline_not_mem_flatMap newline_not_mem_quoteChar _⟩, by decide⟩

/-! ## Values -/

namespace Value

/-- So do documents. -/
theorem newline_not_mem_escapeChar (c : Char) : '\n' ∉ escapeChar c := by
  unfold escapeChar
  split
  case h_8 hnewline _ _ =>
    split
    · simp only [List.mem_append, not_or]
      refine ⟨⟨by decide, ?_⟩, Decimal.newline_not_mem_toDigits 16 _⟩
      split <;> decide
    · rw [List.mem_singleton]
      exact Ne.symm hnewline
  all_goals decide

theorem newline_not_mem_textChars (s : String) : '\n' ∉ textChars s := by
  rw [textChars, List.cons_append, List.mem_cons, List.mem_append, not_or, not_or]
  exact ⟨by decide, newline_not_mem_flatMap newline_not_mem_escapeChar _, by decide⟩

theorem newline_not_mem_scalarChars (v : Value) : '\n' ∉ v.scalarChars := by
  cases v with
  | null => decide
  | bool b => cases b <;> decide
  | int n => exact Decimal.newline_not_mem_intChars n
  | float d =>
    show '\n' ∉ (if d.isFinite then (floatLayout.write d).toList else "null".toList)
    split
    · exact floatLayout.oneLine_write d
    · decide
  | text s => exact newline_not_mem_textChars s
  | list items => exact List.not_mem_nil
  | document entries => exact List.not_mem_nil

mutual

/-- **The compact form of a value has no line feed**: not in its scalars,
and not between them. -/
theorem newline_not_mem_compactChars : ∀ v : Value, '\n' ∉ v.compactChars
  | .list items => by
    rw [compactChars, List.cons_append, List.mem_cons, List.mem_append, not_or, not_or]
    exact ⟨by decide, newline_not_mem_compactItems items, by decide⟩
  | .document entries => by
    rw [compactChars, List.cons_append, List.mem_cons, List.mem_append, not_or, not_or]
    exact ⟨by decide, newline_not_mem_compactEntries entries, by decide⟩
  | .null => newline_not_mem_scalarChars .null
  | .bool b => newline_not_mem_scalarChars (.bool b)
  | .int n => newline_not_mem_scalarChars (.int n)
  | .float d => newline_not_mem_scalarChars (.float d)
  | .text s => newline_not_mem_scalarChars (.text s)

theorem newline_not_mem_compactItems : ∀ items : List Value, '\n' ∉ compactItems items
  | [] => by decide
  | [v] => newline_not_mem_compactChars v
  | v :: w :: rest => by
    rw [compactItems, List.mem_append, List.mem_cons, not_or, not_or]
    · exact ⟨newline_not_mem_compactChars v, by decide, newline_not_mem_compactItems (w :: rest)⟩
    · simp

theorem newline_not_mem_compactEntries :
    ∀ entries : List (String × Value), '\n' ∉ compactEntries entries
  | [] => by decide
  | [(k, v)] => by
    rw [compactEntries, List.mem_append, List.mem_cons, not_or, not_or]
    exact ⟨newline_not_mem_textChars k, by decide, newline_not_mem_compactChars v⟩
  | (k, v) :: e :: rest => by
    rw [compactEntries, List.append_assoc, List.mem_append, List.cons_append, List.mem_cons,
      List.mem_append, List.mem_cons, not_or, not_or, not_or, not_or]
    · exact ⟨newline_not_mem_textChars k, by decide, newline_not_mem_compactChars v, by decide,
        newline_not_mem_compactEntries (e :: rest)⟩
    · simp

end

end Value

/-- **The compact form of a document is on one line.** -/
theorem Document.oneLine_render (doc : Document) : Text.OneLine (Document.render doc false) :=
  Text.oneLine_ofList.mpr (Value.newline_not_mem_compactChars (.document doc))

end DocFilter
