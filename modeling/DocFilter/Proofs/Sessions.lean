import DocFilter.Session
import Mathlib.Data.List.DropRight

/-!
# A session is its lines, one by one

Nothing is carried from one line of a session to the next. A line that is
a **query**, which is to say UTF-8 and not blank, is answered, and what is
written for it is what a session on that line alone writes. The first line
that is not a query ends the session, and what comes after it is never
looked at.

Lines are what stands between line feeds, as `List.splitOn` has it
(`lines_eq_splitOn`); the last piece is a line only if there is something
in it. A session answers lines as long as they are queries (`runLines_eq`),
and `run_eq_sessions` reads this off the bytes.
-/

namespace DocFilter

/-- Trimming leaves nothing of a blank text, and something of any other. -/
theorem Text.trim_isEmpty (s : String) : (trim s).isEmpty = isAllBlank s := by
  have hblank : (∀ c ∈ trimStart s.toList, isBlank c = true)
      ↔ ∀ c ∈ s.toList, isBlank c = true := by
    constructor
    · intro h c hc
      rw [← List.takeWhile_append_dropWhile (p := isBlank) (l := s.toList)] at hc
      exact (List.mem_append.mp hc).elim (List.mem_takeWhile_imp) (h c)
    · intro h c hc
      exact h c ((List.dropWhile_suffix isBlank).mem hc)
  have hend : trimEnd (trimStart s.toList) = [] ↔ ∀ c ∈ trimStart s.toList, isBlank c = true :=
    List.rdropWhile_eq_nil_iff
  rw [Bool.eq_iff_iff, String.isEmpty_iff, trim, isAllBlank, List.all_eq_true, ← hblank, ← hend]
  simp

namespace Session

/-! ## Lines -/

/-- **Input is read line by line**: it is a line without a line feed, or a
line, a line feed and more input. -/
@[elab_as_elim]
theorem line_induction {motive : List UInt8 → Prop} (input : List UInt8)
    (last : ∀ line, lineFeed ∉ line → motive line)
    (next : ∀ line rest, lineFeed ∉ line → motive rest → motive (line ++ lineFeed :: rest)) :
    motive input := by
  induction h : input.length using Nat.strongRecOn generalizing input with
  | ind n ih =>
    by_cases hmem : lineFeed ∈ input
    · obtain ⟨line, rest, rfl, hline⟩ := List.eq_append_cons_of_mem hmem
      refine next line rest hline (ih rest.length ?_ rest rfl)
      rw [← h, List.length_append, List.length_cons]
      omega
    · exact last input hmem

section Lines

variable {line : List UInt8} (hline : lineFeed ∉ line) (current rest : List UInt8)

include hline

/-- A line is collected byte by byte up to its line feed. -/
theorem linesFrom_append_lineFeed : linesFrom current (line ++ lineFeed :: rest)
    = dropReturn (current.reverse ++ line) :: linesFrom [] rest := by
  induction line generalizing current with
  | nil => simp [linesFrom]
  | cons b line ih =>
    have hb : b ≠ lineFeed := fun h => hline (h ▸ List.mem_cons_self)
    rw [List.cons_append, linesFrom, if_neg hb, ih (fun h => hline (List.mem_cons_of_mem b h))]
    simp

/-- What is left at the end of the input is a line, if it is not empty. -/
theorem linesFrom_of_not_mem : linesFrom current line
    = if current.reverse ++ line = [] then [] else [current.reverse ++ line] := by
  induction line generalizing current with
  | nil => simp [linesFrom]
  | cons b line ih =>
    have hb : b ≠ lineFeed := fun h => hline (h ▸ List.mem_cons_self)
    rw [linesFrom, if_neg hb, ih (fun h => hline (List.mem_cons_of_mem b h))]
    simp

theorem lines_append_lineFeed : lines (line ++ lineFeed :: rest) = dropReturn line :: lines rest :=
  linesFrom_append_lineFeed hline [] rest

theorem lines_of_not_mem : lines line = if line = [] then [] else [line] :=
  linesFrom_of_not_mem hline []

end Lines

/-- **The lines are the pieces between line feeds.** A carriage return goes
away before a line feed, and the last piece, which no line feed ends, is a
line if it is not empty. -/
theorem lines_eq_splitOn (input : List UInt8) :
    lines input = (input.splitOn lineFeed).dropLast.map dropReturn
      ++ (input.splitOn lineFeed).getLast?.toList.filter (· ≠ []) := by
  induction input using line_induction with
  | last line hline =>
    rw [lines_of_not_mem hline, List.splitOn_eq_singleton hline]
    by_cases hnil : line = [] <;> simp [hnil]
  | next line rest hline ih =>
    have hne : rest.splitOn lineFeed ≠ [] := List.splitOn_ne_nil lineFeed rest
    rw [lines_append_lineFeed hline, List.splitOn_append_cons_self_of_not_mem hline, ih,
      List.dropLast_cons_of_ne_nil hne, List.getLast?_cons_of_ne_nil hne]
    rfl

/-- A line has no line feed. -/
theorem lineFeed_not_mem_of_mem_lines {input line : List UInt8} (h : line ∈ lines input) :
    lineFeed ∉ line := by
  induction input using line_induction with
  | last first hfirst =>
    rw [lines_of_not_mem hfirst] at h
    split at h
    · cases h
    · exact List.mem_singleton.mp h ▸ hfirst
  | next first rest hfirst ih =>
    rw [lines_append_lineFeed hfirst] at h
    rcases List.mem_cons.mp h with rfl | h
    · unfold dropReturn
      split
      · exact fun hmem => hfirst ((List.dropLast_sublist first).subset hmem)
      · exact hfirst
    · exact ih h

/-- Lines after a line feed come after the lines before it. -/
theorem lines_append (head later : List UInt8) :
    lines (head ++ lineFeed :: later) = lines (head ++ [lineFeed]) ++ lines later := by
  induction head using line_induction with
  | last line hline =>
    rw [lines_append_lineFeed hline, lines_append_lineFeed hline]
    rfl
  | next line rest hline ih =>
    rw [List.append_assoc, List.append_assoc, List.cons_append, List.cons_append,
      lines_append_lineFeed hline, lines_append_lineFeed hline, ih]
    rfl

/-! ## Replies -/

/-- **A line that is a query**: it is UTF-8, and not all of it is blank. -/
def isQuery (line : List UInt8) : Bool :=
  (decode? line).any fun text => !Text.isAllBlank text

/-- **A query that has a filter.** -/
def hasFilter (o : Options) (line : List UInt8) : Bool :=
  (decode? line).any fun text => (Query.toFilter o (.text (Text.trim text))).isOk

/-- What is written for a query. -/
def written (o : Options) (pretty : Bool) (line : List UInt8) : String :=
  ((decode? line).map fun text => (answer o pretty (Text.trim text)).2).getD ""

variable {o : Options} {pretty prompting : Bool}

/-- **A query is answered**, and counts if it has a filter. -/
theorem reply_of_isQuery {line : List UInt8} (h : isQuery line = true) :
    reply o pretty line
      = .answered (if hasFilter o line then 1 else 0) (written o pretty line) := by
  obtain ⟨text, htext, hblank⟩ := (Option.any_eq_true _ _).mp h
  have hquery : (Text.trim text).isEmpty = false := by
    rw [Text.trim_isEmpty]
    simpa using hblank
  have hcount : (answer o pretty (Text.trim text)).1
      = if (Query.toFilter o (.text (Text.trim text))).isOk then 1 else 0 := by
    unfold answer
    cases Query.toFilter o (.text (Text.trim text)) <;> rfl
  rw [reply, hasFilter, written, htext]
  simp [hquery, hcount]

/-- **Any other line ends the session**, which breaks off if it is not
UTF-8. -/
theorem reply_of_not_isQuery {line : List UInt8} (h : isQuery line = false) :
    reply o pretty line = if (decode? line).isNone then .broken else .over := by
  unfold reply
  cases htext : decode? line with
  | none => rfl
  | some text =>
    have hblank : (Text.trim text).isEmpty = true := by
      rw [isQuery, htext] at h
      rw [Text.trim_isEmpty]
      simpa using h
    simp [hblank]

/-! ## Sessions -/

/-- **A session answers lines as long as they are queries.** -/
theorem runLines_eq (ls : List (List UInt8)) : runLines o pretty prompting ls
    = { count := (ls.takeWhile isQuery).countP (hasFilter o)
        out := String.join ((ls.takeWhile isQuery).map fun line =>
          prompt prompting ++ written o pretty line) ++ prompt prompting
        broken := (ls.dropWhile isQuery).head?.any fun line => (decode? line).isNone } := by
  induction ls with
  | nil => simp [runLines]
  | cons line rest ih =>
    rw [runLines]
    cases hquery : isQuery line with
    | true =>
      rw [reply_of_isQuery hquery, ih]
      simp [hquery, List.countP_cons, Nat.add_comm, String.append_assoc]
    | false =>
      rw [reply_of_not_isQuery hquery]
      cases hnone : (decode? line).isNone <;> simp [hquery, hnone]

/-- Lines after one that is not a query make no difference. -/
theorem runLines_append {ls : List (List UInt8)} (h : ∃ line ∈ ls, isQuery line = false)
    (later : List (List UInt8)) :
    runLines o pretty prompting (ls ++ later) = runLines o pretty prompting ls := by
  induction ls with
  | nil => simp at h
  | cons line rest ih =>
    rw [List.cons_append, runLines, runLines]
    cases hquery : isQuery line with
    | true =>
      have hrest : ∃ line ∈ rest, isQuery line = false := by
        obtain ⟨stop, hmem, hstop⟩ := h
        rcases List.mem_cons.mp hmem with rfl | hmem
        · rw [hquery] at hstop
          cases hstop
        · exact ⟨stop, hmem, hstop⟩
      rw [ih hrest]
    | false =>
      rw [reply_of_not_isQuery hquery]
      cases (decode? line).isNone <;> rfl

/-- **A session on one query** writes the answer to it. -/
theorem run_of_isQuery {line : List UInt8} (hline : lineFeed ∉ line) (h : isQuery line = true) :
    run o pretty false line
      = ⟨if hasFilter o line then 1 else 0, written o pretty line, false⟩ := by
  have hne : line ≠ [] := by
    rintro rfl
    exact absurd h (by decide)
  rw [run, lines_of_not_mem hline, if_neg hne, runLines_eq]
  simp [h, prompt, List.countP_cons]

/-- **A session is its lines, one by one.** The lines are the pieces between
line feeds, without a carriage return at the end of one, and the session
takes them as long as they are queries. For each of these it writes the
prompt and what a session on this line alone would write, and after them
the prompt once more. It counts the queries that have a filter, and it
breaks off if the line where it ends is not UTF-8. Bytes after a line that
is not a query make no difference. -/
theorem run_eq_sessions (o : Options) (pretty prompting : Bool) (input : List UInt8) :
    lines input = (input.splitOn lineFeed).dropLast.map dropReturn
      ++ (input.splitOn lineFeed).getLast?.toList.filter (· ≠ [])
    ∧ run o pretty prompting input
      = { count := ((lines input).takeWhile isQuery).countP (hasFilter o)
          out := String.join (((lines input).takeWhile isQuery).map fun line =>
            prompt prompting ++ (run o pretty false line).out) ++ prompt prompting
          broken := ((lines input).dropWhile isQuery).head?.any fun line =>
            (decode? line).isNone }
    ∧ ∀ head later, input = head ++ lineFeed :: later →
      (∃ line ∈ lines (head ++ [lineFeed]), isQuery line = false) →
      run o pretty prompting input = run o pretty prompting (head ++ [lineFeed]) := by
  refine ⟨lines_eq_splitOn input, ?_, ?_⟩
  · have hone : ∀ line ∈ (lines input).takeWhile isQuery,
        (run o pretty false line).out = written o pretty line := by
      intro line hline
      rw [run_of_isQuery (lineFeed_not_mem_of_mem_lines ((List.takeWhile_prefix _).mem hline))
        (List.mem_takeWhile_imp hline)]
    rw [List.map_congr_left fun line hline => congrArg (prompt prompting ++ ·) (hone line hline)]
    exact runLines_eq (lines input)
  · rintro head later rfl hstop
    rw [run, run, lines_append, runLines_append hstop]

/-- A query with a filter, one without, and a blank line. The byte after it
is not UTF-8, but is never read. -/
theorem run_eq_sessions_blank :
    isQuery (dropReturn [0x20, 0x0d]) = false
    ∧ run ⟨.lastWins, []⟩ false true
        [0x61, 0x3d, 0x31, 0x0d, 0x0a, 0x62, 0x0a, 0x20, 0x0d, 0x0a, 0xff]
      = ⟨1, "Enter query: \x7b\"a\":1\x7d\nEnter query: error: parse error at 1: " ++
          "expected comparison operator, found end of input\nEnter query: ", false⟩ := by
  have hstop : isQuery (dropReturn [0x20, 0x0d]) = false := by decide +kernel
  have hshort := (run_eq_sessions ⟨.lastWins, []⟩ false true
    [0x61, 0x3d, 0x31, 0x0d, 0x0a, 0x62, 0x0a, 0x20, 0x0d, 0x0a, 0xff]).2.2
      [0x61, 0x3d, 0x31, 0x0d, 0x0a, 0x62, 0x0a, 0x20, 0x0d] [0xff] rfl
      ⟨dropReturn [0x20, 0x0d], by decide, hstop⟩
  exact ⟨hstop, hshort.trans (by decide +kernel)⟩

end Session

end DocFilter
