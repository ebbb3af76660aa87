import DocFilter.Proofs.Leaves
import DocFilter.Proofs.Policies

/-!
# Translations give each key once

A document is a list of entries, and only where each key is given once
does a key say what is found under it. Merging keeps keys apart, and so
does finishing a conjunction, where `$and` goes to the end. The document
of an expression therefore gives each key once, as long as its ready-made
documents do (`Filter.nodup_keys_ofExpr`), and the code that is found in
it is the code that was pending (`Conjunction.get?_toDocument`).
-/

namespace DocFilter

open Document (get? keys under)

/-- What is found under a key is the first of its values. -/
theorem Document.get?_eq_head?_under (doc : Document) (key : String) :
    get? doc key = (under doc key).head? := by
  induction doc with
  | nil => rfl
  | cons e rest ih =>
    obtain ⟨k, v⟩ := e
    rw [get?_cons]
    by_cases hk : key = k
    · rw [if_pos hk, hk, under_cons_self, List.head?_cons]
    · rw [if_neg hk, under_cons_of_ne (Ne.symm hk), ih]

/-- The code that is found in a finished document is the pending one. -/
theorem Conjunction.get?_toDocument {m : Conjunction} (hn : (keys m.doc).Nodup) :
    get? m.toDocument whereKey = m.pending.code := by
  rw [Document.get?_eq_head?_under, under_toDocument hn]
  cases m.pending.code <;> rfl

/-- A finished document gives each key once. -/
theorem Conjunction.nodup_keys_toDocument {m : Conjunction} (hn : (keys m.doc).Nodup) :
    (keys m.toDocument).Nodup := by
  by_cases hd : m.deferred = []
  · rwa [toDocument_of_nil hd]
  · rw [toDocument_of_ne_nil hd, Document.keys_append, List.nodup_append]
    have herase : (keys (Document.erase m.doc andKey)).Nodup :=
      List.Nodup.sublist (List.Sublist.map Prod.fst List.filter_sublist) hn
    refine ⟨herase, List.nodup_singleton andKey, fun a ha b hb hab => ?_⟩
    have hb : b = andKey := List.mem_singleton.mp hb
    rw [hab, hb] at ha
    exact Document.not_mem_keys_erase m.doc andKey ha

namespace Filter

variable {o : Options}

/-- **The document of an expression gives each key once**, if its
ready-made documents do. -/
theorem nodup_keys_ofExpr {negated : Bool} {e : Expr} {d : Document}
    (h : ofExpr o negated e = .ok d) (hf : ∀ doc ∈ e.fragments, (keys doc).Nodup) :
    (keys d).Nodup := by
  refine ofExpr_induction (P := fun _ e d => (∀ doc ∈ e.fragments, (keys doc).Nodup) →
    (keys d).Nodup) ?_ ?_ ?_ ?_ ?_ h hf
  · intro negated c d h _
    obtain ⟨key, value, rfl⟩ := (compared_of_ofComparison h).exists_single
    exact List.nodup_singleton key
  · intro negated e operands m _ _ hm _
    exact Conjunction.nodup_keys_toDocument (allOf_nodup_keys hm List.nodup_nil)
  · exact fun _ _ _ _ => List.nodup_singleton orKey
  · exact fun ih hf => ih hf
  · intro negated doc d h hf
    rw [ofExpr] at h
    cases negated with
    | false =>
      obtain rfl := Except.ok.inj h
      exact hf doc List.mem_cons_self
    | true =>
      obtain rfl := Except.ok.inj h
      exact List.nodup_singleton norKey

end Filter

end DocFilter
