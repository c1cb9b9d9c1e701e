import Mathlib.Data.List.Nodup

set_option autoImplicit false

/-!
# Looking keys up

What a lookup finds in a list of entries after one was added, changed or taken out.
-/

namespace CallExchange.Lookup

variable {κ β : Type} [DecidableEq κ]

theorem lookup_without (es : List (κ × β)) (p q : κ) :
    (es.filter fun e => !(e.1 == p)).lookup q = if q = p then none else es.lookup q := by
  induction es with
  | nil => simp
  | cons e es ih =>
    by_cases hp : e.1 = p
    · rw [List.filter_cons_of_neg (by simp [hp]), ih, List.lookup_cons]
      by_cases hq : q = p
      · simp [hq]
      · have hne : (q == e.1) = false := by simp [hp, hq]
        simp [hq, hne]
    · rw [List.filter_cons_of_pos (by simp [hp]), List.lookup_cons, List.lookup_cons, ih]
      by_cases hq : q = e.1
      · simp [hq, hp]
      · have hne : (q == e.1) = false := by simp [hq]
        simp [hne]

theorem lookup_with (es : List (κ × β)) (p q : κ) (b : β) :
    (es.map fun e => if e.1 == p then (p, b) else e).lookup q =
      if q = p then (es.lookup p).map fun _ => b else es.lookup q := by
  induction es with
  | nil => simp
  | cons e es ih =>
    rw [List.map_cons]
    by_cases hp : e.1 = p
    · have hhead : (if e.1 == p then (p, b) else e) = (p, b) := by simp [hp]
      rw [hhead, List.lookup_cons, List.lookup_cons, List.lookup_cons, ih]
      by_cases hq : q = p
      · simp [hq, hp]
      · have hne : (q == p) = false := by simp [hq]
        simp only [hne, hp, hq, if_false]
    · have hhead : (if e.1 == p then (p, b) else e) = e := by simp [hp]
      have hne : (p == e.1) = false := by simp [Ne.symm hp]
      rw [hhead, List.lookup_cons, List.lookup_cons, List.lookup_cons, ih]
      by_cases hq : q = e.1
      · simp [hq, hp]
      · have hne' : (q == e.1) = false := by simp [hq]
        simp [hne, hne']

theorem lookup_concat (es : List (κ × β)) (p q : κ) (b : β) :
    (es ++ [(p, b)]).lookup q = (es.lookup q).or (if q = p then some b else none) := by
  rw [List.lookup_append, List.lookup_cons, List.lookup_nil]
  by_cases hq : q = p
  · simp [hq]
  · have hne : (q == p) = false := by simp [hq]
    simp [hq, hne]

theorem lookup_isSome_iff_mem {es : List (κ × β)} {p : κ} :
    (es.lookup p).isSome = true ↔ p ∈ es.map Prod.fst := by
  rw [List.lookup_isSome_iff]
  simp only [beq_iff_eq, List.mem_map]
  exact ⟨fun ⟨e, he, hp⟩ => ⟨e, he, hp.symm⟩, fun ⟨e, he, hp⟩ => ⟨e, he, hp.symm⟩⟩

theorem lookup_eq_some_iff_mem {es : List (κ × β)} (hn : (es.map Prod.fst).Nodup) {p : κ} {b : β} :
    es.lookup p = some b ↔ (p, b) ∈ es := by
  induction es with
  | nil => simp
  | cons e es ih =>
    rw [List.map_cons, List.nodup_cons] at hn
    rw [List.lookup_cons, List.mem_cons]
    by_cases hp : p = e.1
    · subst hp
      rw [beq_self_eq_true, Option.some.injEq]
      constructor
      · rintro rfl
        exact .inl rfl
      · rintro (he | he)
        · exact (congrArg Prod.snd he).symm
        · exact absurd (List.mem_map_of_mem he) hn.1
    · rw [beq_false_of_ne hp, ih hn.2]
      constructor
      · exact .inr
      · rintro (he | he)
        · exact absurd (congrArg Prod.fst he) hp
        · exact he

theorem nodup_keys_without {es : List (κ × β)} (hn : (es.map Prod.fst).Nodup) (p : κ) :
    ((es.filter fun e => !(e.1 == p)).map Prod.fst).Nodup :=
  hn.sublist (List.filter_sublist.map _)

theorem nodup_keys_concat {es : List (κ × β)} (hn : (es.map Prod.fst).Nodup) {p : κ} (b : β)
    (h : es.lookup p = none) : ((es ++ [(p, b)]).map Prod.fst).Nodup := by
  have hp : p ∉ es.map Prod.fst := by
    rw [← lookup_isSome_iff_mem, h]
    simp
  rw [List.map_append]
  exact List.Nodup.append hn (by simp) (by simpa using hp)

section Handles

variable {γ : Type} {l : List (Option γ)} {i n : Nat} {a b : γ}

theorem join_concat (h : (l ++ [some a])[n]?.join = some b) : l[n]?.join = some b ∨ b = a := by
  rw [List.getElem?_append] at h
  split at h
  · exact .inl h
  · rw [List.getElem?_singleton] at h
    split at h
    · exact .inr (Option.some.inj h).symm
    · cases h

theorem join_set_none (h : (l.set i none)[n]?.join = some b) : l[n]?.join = some b := by
  rw [List.getElem?_set] at h
  split at h
  · split at h <;> cases h
  · exact h

theorem set_join_self (h : l[n]?.join = some a) : l.set n (some a) = l := by
  rw [Option.join_eq_some_iff] at h
  obtain ⟨hn, hget⟩ := List.getElem?_eq_some_iff.1 h
  rw [← hget, List.set_getElem_self]

end Handles

end CallExchange.Lookup
