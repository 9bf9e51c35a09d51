/-!
# `Filestore.Proofs.Lookup`: lists of bindings

In a list of bindings where no key comes twice, a key is bound to what it is listed with
(`lookup_eq_some_iff_mem`), and the list is that binding and those of the other keys
(`perm_cons_filter`). Lists of bindings are how the reference store keeps its files and
descriptors and how ledgers keep what was handed out.

Such lists change in two ways: bindings are filtered out, and the values of some keys are changed
while the keys stay. For the second, `mem_map_if` says which bindings the changed list has, and
its two corollaries are for keys that the condition holds of whatever they are bound to, or does
not.
-/

set_option autoImplicit false

namespace Filestore

variable {α β : Type}

/-- A change of values leaves the keys, so keys that come once come once afterwards. -/
theorem map_fst_map {γ : Type} {change : α × β → α × γ}
    (hchange : ∀ entry, (change entry).1 = entry.1) (l : List (α × β)) :
    (l.map change).map Prod.fst = l.map Prod.fst := by
  rw [List.map_map]
  exact List.map_congr_left fun entry _ => hchange entry

/-- What a list holds whose values are changed under a condition: the bindings that the condition
does not hold of, and the changed ones. -/
theorem mem_map_if {p : α × β → Prop} [DecidablePred p] {change : α × β → β} {l : List (α × β)}
    {key : α} {value : β} :
    (key, value) ∈ l.map (fun entry => if p entry then (entry.1, change entry) else entry) ↔
      ¬ p (key, value) ∧ (key, value) ∈ l ∨
        ∃ old, p (key, old) ∧ (key, old) ∈ l ∧ value = change (key, old) := by
  rw [List.mem_map]
  constructor
  · rintro ⟨entry, hmem, heq⟩
    split at heq
    · rename_i hp
      cases heq
      exact .inr ⟨entry.2, hp, hmem, rfl⟩
    · rename_i hp
      cases heq
      exact .inl ⟨hp, hmem⟩
  · rintro (⟨hp, hmem⟩ | ⟨old, hp, hmem, rfl⟩)
    · exact ⟨_, hmem, if_neg hp⟩
    · exact ⟨_, hmem, if_pos hp⟩

/-- A key that the condition holds of is listed with the changed values, and with no others. -/
theorem mem_map_if_of_forall {p : α × β → Prop} [DecidablePred p] {change : α × β → β}
    {l : List (α × β)} {key : α} {value : β} (hp : ∀ old, p (key, old)) :
    (key, value) ∈ l.map (fun entry => if p entry then (entry.1, change entry) else entry) ↔
      ∃ old, (key, old) ∈ l ∧ value = change (key, old) := by
  simp only [mem_map_if, hp, not_true_eq_false, false_and, true_and, false_or]

/-- A key that the condition does not hold of is listed with the values that it had. -/
theorem mem_map_if_of_not {p : α × β → Prop} [DecidablePred p] {change : α × β → β}
    {l : List (α × β)} {key : α} {value : β} (hp : ∀ old, ¬ p (key, old)) :
    (key, value) ∈ l.map (fun entry => if p entry then (entry.1, change entry) else entry) ↔
      (key, value) ∈ l := by
  simp only [mem_map_if, hp, not_false_eq_true, false_and, true_and, exists_false, or_false]

variable [BEq α] [LawfulBEq α] {key : α} {value : β} {l : List (α × β)}

/-- A key is bound by the first binding of it, so a binding of another key does not matter. -/
theorem lookup_cons_of_ne {other : α} (hne : key ≠ other) (value : β) (l : List (α × β)) :
    ((other, value) :: l).lookup key = l.lookup key := by
  rw [List.lookup_cons, beq_eq_false_iff_ne.mpr hne]

/-- What a key is bound to is listed with it, in any list. -/
theorem mem_of_lookup (h : l.lookup key = some value) : (key, value) ∈ l := by
  obtain ⟨front, back, rfl, -⟩ := List.lookup_eq_some_iff.mp h
  exact List.mem_append_right _ List.mem_cons_self

/-- Where no key comes twice, a key is bound to what it is listed with: there is no other binding
that could come first. -/
theorem lookup_eq_some_iff_mem (hl : (l.map Prod.fst).Nodup) :
    l.lookup key = some value ↔ (key, value) ∈ l := by
  refine ⟨mem_of_lookup, ?_⟩
  intro h
  obtain ⟨front, back, rfl⟩ := List.append_of_mem h
  refine List.lookup_eq_some_iff.mpr ⟨front, back, rfl, ?_⟩
  intro entry hentry
  rw [List.map_append, List.nodup_append] at hl
  rw [bne_iff_ne]
  exact (hl.2.2 entry.1 (List.mem_map_of_mem hentry) key List.mem_cons_self).symm

/-- A key that is not listed is bound to nothing, and it is the only kind that is not. -/
theorem lookup_eq_none_iff_not_mem : l.lookup key = none ↔ key ∉ l.map Prod.fst := by
  rw [List.lookup_eq_none_iff]
  constructor
  · rintro h hmem
    obtain ⟨entry, hentry, rfl⟩ := List.mem_map.mp hmem
    exact bne_iff_ne.mp (h entry hentry) rfl
  · rintro h entry hentry
    rw [bne_iff_ne]
    rintro rfl
    exact h (List.mem_map_of_mem hentry)

/-- Where no key comes twice, a binding and those of the other keys are all there is, in some
order. -/
theorem perm_cons_filter (hl : (l.map Prod.fst).Nodup) (h : (key, value) ∈ l) :
    l.Perm ((key, value) :: l.filter fun entry => entry.1 != key) := by
  obtain ⟨front, back, rfl⟩ := List.append_of_mem h
  rw [List.map_append, List.map_cons, List.nodup_append, List.nodup_cons] at hl
  have hfront : front.filter (fun entry => entry.1 != key) = front :=
    List.filter_eq_self.mpr fun entry hentry => bne_iff_ne.mpr
      (hl.2.2 entry.1 (List.mem_map_of_mem hentry) key List.mem_cons_self)
  have hback : back.filter (fun entry => entry.1 != key) = back := by
    refine List.filter_eq_self.mpr fun entry hentry => bne_iff_ne.mpr fun heq => hl.2.1.1 ?_
    exact List.mem_map.mpr ⟨entry, hentry, heq⟩
  rw [List.filter_append, List.filter_cons_of_neg (by simp), hfront, hback]
  exact List.perm_middle

end Filestore
