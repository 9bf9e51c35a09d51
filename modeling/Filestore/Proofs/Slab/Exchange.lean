import Filestore.Proofs.Slab.Live

/-!
# `Filestore.Proofs.Slab.Exchange`: changes that stay within a set of handles

`Slab.Exchange before after old new` says that a slab went from `before` to `after` by giving up
the handles `old` for the handles `new`: no other handle is touched, a handle that is only in
`new` was free before, and one that is only in `old` is free afterwards. Each operation of a slab
is an exchange, and exchanges compose (`Exchange.trans`), so a loop that touches one chain of
blocks is an exchange of the handles of that chain, whatever else is in the slab.

This is how several files share one storage of blocks without any of them being mentioned in what
is said of another. An operation on a file is an exchange of its own handles; a file whose handles
are not among them keeps its blocks (`Chain.Stored.exchange`), and the new handles cannot be its
own, since they were free.

An exchange also keeps a sound slab sound, so soundness need not be followed through the steps of
a loop apart from it. How many values there are afterwards follows from the handles alone
(`Exchange.len_add`).
-/

set_option autoImplicit false

namespace Filestore

namespace Slab

variable {α : Type} {before middle after : Slab α} {old new next : List Handle}

/-- The slab gave up the handles `old` for the handles `new`.

- `kept`: other handles denote what they denoted.
- `fresh`: a handle that comes in denoted nothing before.
- `gone`: a handle that goes out denotes nothing afterwards.
- `sound`: the counter and the free list stay right. -/
structure Exchange (before after : Slab α) (old new : List Handle) : Prop where
  kept : ∀ key, key ∉ old → key ∉ new → after.get? key = before.get? key
  fresh : ∀ key ∈ new, key ∉ old → before.get? key = none
  gone : ∀ key ∈ old, key ∉ new → after.get? key = none
  sound : before.Sound → after.Sound

/-- A slab that stays as it is has exchanged any handles for themselves. -/
theorem Exchange.refl (slab : Slab α) (ids : List Handle) : slab.Exchange slab ids ids :=
  ⟨fun _ _ _ => rfl, fun _ h h' => absurd h h', fun _ h h' => absurd h h', id⟩

/-- One exchange after another is an exchange. A handle of the middle that is neither in the first
list nor in the last came in free and went out free. -/
theorem Exchange.trans (h₁ : before.Exchange middle old next)
    (h₂ : middle.Exchange after next new) :
    before.Exchange after old new where
  kept key hold hnew := by
    by_cases hnext : key ∈ next
    · rw [h₂.gone key hnext hnew, h₁.fresh key hnext hold]
    · rw [h₂.kept key hnext hnew, h₁.kept key hold hnext]
  fresh key hnew hold := by
    by_cases hnext : key ∈ next
    · exact h₁.fresh key hnext hold
    · rw [← h₁.kept key hold hnext]
      exact h₂.fresh key hnew hnext
  gone key hold hnew := by
    by_cases hnext : key ∈ next
    · exact h₂.gone key hnext hnew
    · rw [h₂.kept key hnext hnew]
      exact h₁.gone key hold hnext
  sound h := h₂.sound (h₁.sound h)

/-- What stays in place may be listed on both sides, so an exchange of some handles is one of
more. -/
theorem Exchange.append_left (h : before.Exchange after old new) (rest : List Handle) :
    before.Exchange after (rest ++ old) (rest ++ new) where
  kept key hold hnew := by
    simp only [List.mem_append, not_or] at hold hnew
    exact h.kept key hold.2 hnew.2
  fresh key hnew hold := by
    simp only [List.mem_append, not_or] at hold hnew
    exact h.fresh key (hnew.resolve_left hold.1) hold.2
  gone key hold hnew := by
    simp only [List.mem_append, not_or] at hold hnew
    exact h.gone key (hold.resolve_left hnew.1) hnew.2
  sound := h.sound

/-- The order in which the handles that go out are listed does not matter, nor how often they
are. -/
theorem Exchange.congr_old {old' : List Handle} (h : before.Exchange after old new)
    (hsame : ∀ key, key ∈ old ↔ key ∈ old') : before.Exchange after old' new where
  kept key hold := h.kept key (mt (hsame key).mp hold)
  fresh key hnew hold := h.fresh key hnew (mt (hsame key).mp hold)
  gone key hold := h.gone key ((hsame key).mpr hold)
  sound := h.sound

/-- Replacing a value exchanges its handle for itself, as one of any number that stay. -/
theorem Exchange.set {key : Handle} {ids : List Handle} (hkey : key ∈ ids) (slab : Slab α)
    (value : α) : slab.Exchange (slab.set key value) ids ids where
  kept other hother _ := get?_set_of_ne (by rintro rfl; exact hother hkey) value
  fresh _ h h' := absurd h h'
  gone _ h h' := absurd h h'
  sound h := h.set key value

/-- An insertion exchanges nothing for its handle, which denoted nothing before. -/
theorem Exchange.insert (slab : Slab α) (value : α) :
    slab.Exchange (slab.insert value).2 [] [(slab.insert value).1] where
  kept other _ hother := get?_insert_of_ne fun h => hother (List.mem_singleton.mpr h)
  fresh other hother _ := by
    rw [List.mem_singleton.mp hother]
    exact get?_fst_insert slab value
  gone _ h := by simp at h
  sound h := h.insert value

/-- An erasure exchanges its handle for nothing, also where it was not good. -/
theorem Exchange.erase (slab : Slab α) (key : Handle) :
    slab.Exchange (slab.erase key) [key] [] where
  kept other hother _ := get?_erase_of_ne (fun h => hother (List.mem_singleton.mpr h)) slab
  fresh _ h := by simp at h
  gone other hother _ := by
    rw [List.mem_singleton.mp hother]
    exact get?_erase_self slab key
  sound h := h.erase key

/-- A handle outside the exchange that was good is good, and denotes what it denoted. -/
theorem Exchange.get?_eq_some (h : before.Exchange after old new) {key : Handle} {value : α}
    (hkey : before.get? key = some value) (hold : key ∉ old) : after.get? key = some value := by
  by_cases hnew : key ∈ new
  · rw [h.fresh key hnew hold] at hkey
    cases hkey
  · rw [h.kept key hold hnew, hkey]

/-- A handle that is good afterwards came in, or was good before and did not go out. -/
theorem Exchange.of_get?_eq_some (h : before.Exchange after old new) {key : Handle} {value : α}
    (hkey : after.get? key = some value) :
    key ∈ new ∨ key ∉ old ∧ before.get? key = some value := by
  by_cases hnew : key ∈ new
  · exact .inl hnew
  · by_cases hold : key ∈ old
    · rw [h.gone key hold hnew] at hkey
      cases hkey
    · exact .inr ⟨hold, (h.kept key hold hnew) ▸ hkey⟩

/-- A slab has as many values more as handles come in, and as many less as go out, if they are
good on their sides. -/
theorem Exchange.len_add (h : before.Exchange after old new) (hsound : before.Sound)
    (hold : old.Nodup) (hnew : new.Nodup) (hbefore : ∀ key ∈ old, key ∈ before.keys)
    (hafter : ∀ key ∈ new, key ∈ after.keys) :
    after.len + old.length = before.len + new.length := by
  -- Before there were the handles that go out and others, afterwards those that come in and the
  -- same others.
  have hrest : (before.keys.filter (· ∉ old)).Nodup := (nodup_keys before).filter _
  have hmem : ∀ key, key ∈ before.keys.filter (· ∉ old) ↔ key ∈ before.keys ∧ key ∉ old := by
    intro key
    rw [List.mem_filter, decide_eq_true_iff]
  have hkeys : before.keys.Perm (old ++ before.keys.filter (· ∉ old)) := by
    refine perm_append_of_mem_iff hold hrest (nodup_keys before) ?_ ?_
    · exact fun key hkey hother => ((hmem key).mp hother).2 hkey
    · intro key
      rw [hmem]
      by_cases hkey : key ∈ old
      · exact iff_of_true (hbefore key hkey) (.inl hkey)
      · exact ⟨fun hlive => .inr ⟨hlive, hkey⟩, fun hboth => (hboth.resolve_left hkey).1⟩
  have hkeys' : after.keys.Perm (new ++ before.keys.filter (· ∉ old)) := by
    refine perm_append_of_mem_iff hnew hrest (nodup_keys after) ?_ ?_
    · intro key hkey hother
      obtain ⟨hlive, hout⟩ := (hmem key).mp hother
      exact not_mem_keys.mpr (h.fresh key hkey hout) hlive
    · intro key
      rw [hmem]
      constructor
      · intro hlive
        obtain ⟨value, hvalue⟩ := mem_keys.mp hlive
        rcases h.of_get?_eq_some hvalue with hin | ⟨hout, hkept⟩
        · exact .inl hin
        · exact .inr ⟨mem_keys.mpr ⟨value, hkept⟩, hout⟩
      · rintro (hin | ⟨hlive, hout⟩)
        · exact hafter key hin
        · obtain ⟨value, hvalue⟩ := mem_keys.mp hlive
          exact mem_keys.mpr ⟨value, h.get?_eq_some hvalue hout⟩
  rw [(h.sound hsound).counted, hsound.counted, hkeys.length_eq, hkeys'.length_eq,
    List.length_append, List.length_append]
  omega

end Slab

end Filestore
