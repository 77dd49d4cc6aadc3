import Mathlib.Data.List.Nodup

/-!
# Entries by key

Looking a key up in a list of entries, of which the first one counts.
-/

namespace HomeMetering

variable {α : Type}

theorem lookup_cons (k u : String) (a : α) (es : List (String × α)) :
    ((k, a) :: es).lookup u = if u = k then some a else es.lookup u := by
  rw [List.lookup_cons]
  by_cases h : u = k <;> simp [h, beq_eq_false_iff_ne.2]

theorem lookup_filter (es : List (String × α)) (k u : String) :
    (es.filter fun e => e.1 != k).lookup u = if u = k then none else es.lookup u := by
  induction es with
  | nil => simp
  | cons e es ih =>
    obtain ⟨j, a⟩ := e
    by_cases hj : j = k
    · subst hj
      rw [List.filter_cons_of_neg (by simp), ih, lookup_cons]
      by_cases hu : u = j <;> simp [hu]
    · rw [List.filter_cons_of_pos (by simpa using hj), lookup_cons, lookup_cons, ih]
      by_cases hu : u = j <;> simp [hu, hj]

theorem lookup_put (es : List (String × α)) (k u : String) (a : α) :
    ((k, a) :: es.filter fun e => e.1 != k).lookup u = if u = k then some a else es.lookup u := by
  rw [lookup_cons, lookup_filter]
  by_cases hu : u = k <;> simp [hu]

theorem lookup_of_mem {es : List (String × α)} {k : String} {a : α}
    (hkeys : (es.map Prod.fst).Nodup) (h : (k, a) ∈ es) : es.lookup k = some a := by
  induction es with
  | nil => cases h
  | cons e es ih =>
    obtain ⟨j, b⟩ := e
    obtain ⟨hnew, hes⟩ := List.nodup_cons.1 hkeys
    rw [lookup_cons]
    rcases List.mem_cons.1 h with heq | hmem
    · cases heq
      rw [if_pos rfl]
    · have hne : k ≠ j := by
        rintro rfl
        exact hnew (List.mem_map.2 ⟨_, hmem, rfl⟩)
      rw [if_neg hne, ih hes hmem]

theorem mem_iff_lookup {es : List (String × α)} {k : String} {a : α}
    (hkeys : (es.map Prod.fst).Nodup) : (k, a) ∈ es ↔ es.lookup k = some a := by
  refine ⟨lookup_of_mem hkeys, fun h => ?_⟩
  obtain ⟨before, after, rfl, -⟩ := List.lookup_eq_some_iff.1 h
  simp

theorem lookup_of_perm {es es' : List (String × α)} (hkeys : (es.map Prod.fst).Nodup)
    (h : es.Perm es') (k : String) : es.lookup k = es'.lookup k := by
  have hkeys' : (es'.map Prod.fst).Nodup := (h.map Prod.fst).nodup_iff.1 hkeys
  refine Option.ext fun a => ?_
  rw [← mem_iff_lookup hkeys, ← mem_iff_lookup hkeys', h.mem_iff]

theorem nodup_keys_concat {κ : Type} {es : List (κ × α)} {k : κ} (a : α)
    (h : (es.map Prod.fst).Nodup) (hnew : ∀ e ∈ es, e.1 ≠ k) :
    ((es ++ [(k, a)]).map Prod.fst).Nodup := by
  rw [List.map_append, List.map_singleton, ← List.concat_eq_append]
  refine h.concat fun hk => ?_
  obtain ⟨e, he, heq⟩ := List.mem_map.1 hk
  exact hnew e he heq

end HomeMetering
