import DocFilter.Proofs.Messages
import DocFilter.Proofs.Trimming

/-!
# One line for each query

A session that writes documents in their compact form, and no prompt,
writes one line for each query, and so its output can be read beside its
input. What could break this is a line feed inside an answer. A document
has none in its compact form; a message has none if the query has none,
and a query is a line, whose bytes have no line feed. In UTF-8 a line feed
is a byte of its own, so the text of the line has none either
(`Session.oneLine_of_decode?`).
-/

namespace DocFilter.Session

open Text (OneLine)

/-! ## Lines as texts -/

/-- **The bytes of a text are those of its characters.** -/
theorem decode?_eq_some {line : List UInt8} {text : String} (h : decode? line = some text) :
    line = text.toList.flatMap String.utf8EncodeChar := by
  have hbytes : text.toByteArray = ⟨line.toArray⟩ := by
    unfold decode? String.fromUTF8? at h
    split at h
    · obtain rfl := Option.some.inj h
      rfl
    · cases h
  rw [← String.utf8Encode_toList] at hbytes
  have hdata := congrArg (fun bytes => bytes.data.toList) hbytes
  simpa [List.utf8Encode] using hdata.symm

/-- **A line without a line feed is a text on one line.** -/
theorem oneLine_of_decode? {line : List UInt8} {text : String} (hline : lineFeed ∉ line)
    (h : decode? line = some text) : OneLine text := by
  intro hmem
  have hbyte : lineFeed ∈ String.utf8EncodeChar '\n' := by decide
  rw [decode?_eq_some h] at hline
  exact hline (List.mem_flatMap.mpr ⟨'\n', hmem, hbyte⟩)

/-! ## Answers -/

/-- **The line that answers a query**: the compact form of its filter, or
the error line. -/
inductive Answers (o : Options) (line : List UInt8) : String → Prop where
  /-- The query has a filter. -/
  | filter {text : String} {doc : Document} (htext : decode? line = some text)
    (h : Query.toFilter o (.text (Text.trim text)) = .ok doc) :
    Answers o line (Document.render doc false)
  /-- The query fails. -/
  | error {text : String} {err : QueryError} (htext : decode? line = some text)
    (h : Query.toFilter o (.text (Text.trim text)) = .error err) :
    Answers o line ("error: " ++ err.message)

variable {o : Options} {line : List UInt8} {answer : String}

/-- What is written for a query is a line that answers it. -/
theorem exists_answers (h : isQuery line = true) :
    ∃ answer, Answers o line answer ∧ written o false line = answer ++ "\n" := by
  obtain ⟨text, htext, -⟩ := (Option.any_eq_true _ _).mp h
  unfold written Session.answer
  rw [htext]
  cases hfilter : Query.toFilter o (.text (Text.trim text)) with
  | ok doc => exact ⟨_, .filter htext hfilter, by simp [hfilter]⟩
  | error err => exact ⟨_, .error htext hfilter, by simp [hfilter]⟩

/-- **An answer is on one line**, if all aliases are. -/
theorem Answers.oneLine (h : Answers o line answer) (ho : ∀ a ∈ o.aliases, OneLine a.2)
    (hline : lineFeed ∉ line) : OneLine answer := by
  cases h with
  | filter _ _ => exact Document.oneLine_render _
  | error htext herr =>
    have hquery : OneLine (Text.trim _) := fun hmem =>
      oneLine_of_decode? hline htext (Text.mem_of_mem_trim hmem)
    exact .append (by decide) (Query.oneLine_message ho hquery herr)

/-- A document is never written like an error. -/
theorem render_ne_error (doc : Document) (message : String) :
    Document.render doc false ≠ "error: " ++ message := by
  intro heq
  have hdoc : (Document.render doc false).toList.head? = some '\x7b' := by
    show (String.ofList (Value.document doc).compactChars).toList.head? = _
    rw [String.toList_ofList, Value.compactChars]
    rfl
  have herror : "error: ".toList = 'e' :: "rror: ".toList := by decide
  rw [heq, String.toList_append, herror, List.cons_append, List.head?_cons] at hdoc
  exact absurd hdoc (by decide)

/-- **An answer is the error line exactly if the query fails.** -/
theorem Answers.error_iff (h : Answers o line answer) :
    (∃ message, answer = "error: " ++ message) ↔ hasFilter o line = false := by
  cases h with
  | @filter text doc htext hok =>
    have hfilter : hasFilter o line = true := by
      simp [hasFilter, htext, hok, Except.isOk, Except.toBool]
    have hno : ¬ ∃ message, Document.render doc false = "error: " ++ message := by
      rintro ⟨message, heq⟩
      exact render_ne_error doc message heq
    rw [hfilter]
    exact iff_of_false hno (by decide)
  | @error text err htext herr =>
    refine iff_of_true ⟨err.message, rfl⟩ ?_
    simp [hasFilter, htext, herr, Except.isOk, Except.toBool]

/-! ## Sessions -/

/-- Lines that are written one by one make up the output. -/
theorem exists_forall₂_written {R : List UInt8 → String → Prop} {queries : List (List UInt8)}
    (h : ∀ line ∈ queries, ∃ answer, R line answer ∧ written o false line = answer ++ "\n") :
    ∃ answers : List String, List.Forall₂ R queries answers
      ∧ String.join (queries.map (written o false)) = String.join (answers.map (· ++ "\n")) := by
  induction queries with
  | nil => exact ⟨[], .nil, rfl⟩
  | cons line rest ih =>
    rw [List.forall_mem_cons] at h
    obtain ⟨⟨answer, hanswer, hwritten⟩, hrest⟩ := h
    obtain ⟨answers, hanswers, hjoin⟩ := ih hrest
    refine ⟨answer :: answers, .cons hanswer hanswers, ?_⟩
    simp [hwritten, hjoin]

/-- **One line for each query.** A session in compact form and without a
prompt writes one line for each query that it takes, in their order, and
nothing else. The line answers the query: it is the compact form of its
filter, or the error line, and the latter exactly if the query fails. There
is no line feed in it, whatever the query is, if there is none in an
alias. -/
theorem run_lineByLine (o : Options) (ho : ∀ a ∈ o.aliases, OneLine a.2) (input : List UInt8) :
    ∃ answers : List String,
      (run o false false input).out = String.join (answers.map (· ++ "\n"))
      ∧ List.Forall₂ (fun line answer => OneLine answer ∧ Answers o line answer
          ∧ ((∃ message, answer = "error: " ++ message) ↔ hasFilter o line = false))
        ((lines input).takeWhile isQuery) answers := by
  have hlines : ∀ line ∈ (lines input).takeWhile isQuery, ∃ answer,
      (OneLine answer ∧ Answers o line answer
        ∧ ((∃ message, answer = "error: " ++ message) ↔ hasFilter o line = false))
      ∧ written o false line = answer ++ "\n" := by
    intro line hmem
    have hline : lineFeed ∉ line :=
      lineFeed_not_mem_of_mem_lines ((List.takeWhile_prefix _).mem hmem)
    obtain ⟨answer, hanswer, hwritten⟩ := exists_answers (o := o) (List.mem_takeWhile_imp hmem)
    exact ⟨answer, ⟨hanswer.oneLine ho hline, hanswer, hanswer.error_iff⟩, hwritten⟩
  obtain ⟨answers, hanswers, hjoin⟩ := exists_forall₂_written hlines
  refine ⟨answers, ?_, hanswers⟩
  rw [run, runLines_eq, ← hjoin]
  simp [prompt]

/-- A query with a filter, and one that has none because the alias of its
field cannot be code. The last line is blank. -/
theorem run_lineByLine_alias :
    (∀ a ∈ [("n", "x y")], OneLine a.2)
    ∧ (run ⟨.reject, [("n", "x y")]⟩ false false
        [0x61, 0x3d, 0x31, 0x0d, 0x0a, 0x6e, 0x20, 0x74, 0x79, 0x70, 0x65, 0x20, 0x6e, 0x75, 0x6c,
          0x6c, 0x0a, 0x20, 0x0a]).out
      = "\x7b\"a\":1\x7d\nerror: field 'x y' cannot be used in a $where expression\n"
    ∧ ∃ answers : List String,
      "\x7b\"a\":1\x7d\nerror: field 'x y' cannot be used in a $where expression\n"
        = String.join (answers.map (· ++ "\n"))
      ∧ List.Forall₂ (fun line answer => OneLine answer
          ∧ Answers ⟨.reject, [("n", "x y")]⟩ line answer
          ∧ ((∃ message, answer = "error: " ++ message)
            ↔ hasFilter ⟨.reject, [("n", "x y")]⟩ line = false))
        [[0x61, 0x3d, 0x31],
          [0x6e, 0x20, 0x74, 0x79, 0x70, 0x65, 0x20, 0x6e, 0x75, 0x6c, 0x6c]] answers := by
  have ho : ∀ a ∈ [("n", "x y")], OneLine a.2 := by
    rintro a (_ | ⟨_, ⟨⟩⟩)
    decide
  have hqueries : (lines [0x61, 0x3d, 0x31, 0x0d, 0x0a, 0x6e, 0x20, 0x74, 0x79, 0x70, 0x65, 0x20,
      0x6e, 0x75, 0x6c, 0x6c, 0x0a, 0x20, 0x0a]).takeWhile isQuery
      = [[0x61, 0x3d, 0x31],
          [0x6e, 0x20, 0x74, 0x79, 0x70, 0x65, 0x20, 0x6e, 0x75, 0x6c, 0x6c]] := by
    decide +kernel
  have hout : (run ⟨.reject, [("n", "x y")]⟩ false false
        [0x61, 0x3d, 0x31, 0x0d, 0x0a, 0x6e, 0x20, 0x74, 0x79, 0x70, 0x65, 0x20, 0x6e, 0x75, 0x6c,
          0x6c, 0x0a, 0x20, 0x0a]).out
      = "\x7b\"a\":1\x7d\nerror: field 'x y' cannot be used in a $where expression\n" := by
    decide +kernel
  obtain ⟨answers, hjoin, hanswers⟩ := run_lineByLine ⟨.reject, [("n", "x y")]⟩ ho
    [0x61, 0x3d, 0x31, 0x0d, 0x0a, 0x6e, 0x20, 0x74, 0x79, 0x70, 0x65, 0x20, 0x6e, 0x75, 0x6c,
      0x6c, 0x0a, 0x20, 0x0a]
  rw [hout] at hjoin
  rw [hqueries] at hanswers
  exact ⟨ho, hout, answers, hjoin, hanswers⟩

end DocFilter.Session
