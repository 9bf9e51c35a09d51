import Filestore.Proofs.Store.Reply

/-!
# `Filestore.Proofs.Store.Clients`: clients on different files do not disturb each other

All files share one storage of blocks, and a slot that one file gives up is taken by whichever file
needs a block next. So the handles that a client's blocks get depend on what other clients do. What
the client sees does not.

`Reachable.clients_apart` is the main result. A call through a descriptor leaves all other files
alone, to the last handle (`Confined`). However the calls of two clients on different files are
interleaved, each client gets the answers that it would get alone, and in the end all files look the
same.

The second part is by induction on the calls (`Sound.answersTo_eq`). As long as a file looks the
same in two stores, a call on it is answered in the same way in both, and it looks the same again;
a call on another file does not change how it looks.
-/

set_option autoImplicit false

namespace Filestore

/-- The list `calls` has the elements of both lists, those of each in their order. -/
inductive Interleaved {α : Type} : List α → List α → List α → Prop where
  /-- Nothing is left of either list. -/
  | nil : Interleaved [] [] []
  /-- The first list gives the next element. -/
  | left {mine theirs calls : List α} (call : α) :
    Interleaved mine theirs calls → Interleaved (call :: mine) theirs (call :: calls)
  /-- The second list gives the next element. -/
  | right {mine theirs calls : List α} (call : α) :
    Interleaved mine theirs calls → Interleaved mine (call :: theirs) (call :: calls)

namespace Interleaved

variable {α : Type} {mine theirs calls : List α}

/-- It does not matter which list is the first: every step that takes from one list takes from the
other when the two are exchanged. -/
theorem symm (h : Interleaved mine theirs calls) : Interleaved theirs mine calls := by
  induction h with
  | nil => exact .nil
  | left call _ ih => exact .right call ih
  | right call _ ih => exact .left call ih

/-- Every element is one of either list, so what is so of all elements of both is so of the
interleaved ones. -/
theorem mem_or_mem (h : Interleaved mine theirs calls) :
    ∀ call ∈ calls, call ∈ mine ∨ call ∈ theirs := by
  induction h with
  | nil => exact fun _ hcall => nomatch hcall
  | left call _ ih =>
    intro other hother
    rcases List.mem_cons.mp hother with rfl | hother
    · exact .inl List.mem_cons_self
    · exact (ih other hother).imp_left (List.mem_cons_of_mem _)
  | right call _ ih =>
    intro other hother
    rcases List.mem_cons.mp hother with rfl | hother
    · exact .inr List.mem_cons_self
    · exact (ih other hother).imp_right (List.mem_cons_of_mem _)

/-- The elements of one list are picked out by what only they satisfy, and come out in their
order. This is how the calls of one client are found among those of both. -/
theorem filter_eq (h : Interleaved mine theirs calls) {p : α → Bool}
    (hmine : ∀ call ∈ mine, p call = true) (htheirs : ∀ call ∈ theirs, p call = false) :
    calls.filter p = mine := by
  induction h with
  | nil => rfl
  | left call _ ih =>
    obtain ⟨hcall, hmine⟩ := List.forall_mem_cons.mp hmine
    rw [List.filter_cons_of_pos hcall, ih hmine htheirs]
  | right call _ ih =>
    obtain ⟨hcall, htheirs⟩ := List.forall_mem_cons.mp htheirs
    rw [List.filter_cons_of_neg (by simp [hcall]), ih hmine htheirs]

end Interleaved

namespace Store

variable {config : Config} {store alone : Store} {id other : FileId} {fd : Nat} {call : Call}

/-- A call through a descriptor leaves everything alone but the descriptor and its file.

- `record_eq`: what is recorded of another file stays.
- `chain_eq`: another file has the blocks that it had, with the same bytes and links.
- `block_eq`: those blocks are where they were in storage.
- `descriptor_eq`: a descriptor of another file stays, with its cursor.
- `sibling_eq`: another descriptor of the same file stays too, unless the call makes the file
  shorter. -/
structure Confined (store : Store) (call : Call) (fd : Nat) (id : FileId) : Prop where
  record_eq : ∀ other, other ≠ id →
    (store.perform call).2.catalog.files.get? other = store.catalog.files.get? other
  chain_eq : ∀ other file, other ≠ id → store.catalog.files.get? other = some file →
    file.chain (store.perform call).2.blocks = file.chain store.blocks
  block_eq : ∀ other file, other ≠ id → store.catalog.files.get? other = some file →
    ∀ key ∈ (file.chain store.blocks).ids,
      (store.perform call).2.blocks.get? key = store.blocks.get? key
  descriptor_eq : ∀ other descriptor, store.descriptors.get? other = some descriptor →
    descriptor.file ≠ id → (store.perform call).2.descriptors.get? other = some descriptor
  sibling_eq : (∀ size file, call = .resize fd size → store.catalog.files.get? id = some file →
      file.size ≤ size) →
    ∀ other, other ≠ fd →
      (store.perform call).2.descriptors.get? other = store.descriptors.get? other

/-- A call through a descriptor edits the file that the descriptor is open on and nothing else.
What it edits the file into is said by the reply that the view of the file gives. -/
theorem Sound.edited_through (h : store.Sound) (hopen : store.fileOf fd = some id)
    (hthrough : call.through? = some fd) :
    ∃ bytes place, Edited store (store.perform call).2 id bytes place := by
  obtain ⟨view, pos, hview, hposition⟩ := h.exists_view hopen
  exact ⟨_, _, (h.perform_through hview hposition hthrough).edited⟩

section Siblings

-- The positions of the other descriptors on the file are known from the view. That their cursors
-- stay to the letter has to be read off the operations.

variable {sibling : Nat}

/-- A write leaves the cursor of every other descriptor to the letter, also that of one which
stands in the block that the bytes go to. -/
theorem get?_write_of_ne (hne : sibling ≠ fd) (store : Store) (data : Bytes) :
    (store.write fd data).2.descriptors.get? sibling = store.descriptors.get? sibling := by
  unfold Store.write
  split
  · rfl
  · split
    · rfl
    · dsimp only
      split
      · exact DescriptorTable.get?_setCursor_of_ne hne _ _
      · split <;> exact DescriptorTable.get?_setCursor_of_ne hne _ _

/-- A read sets the cursor that it goes through, and no other. -/
theorem get?_read_of_ne (hne : sibling ≠ fd) (store : Store) (want : Nat) :
    (store.read fd want).2.descriptors.get? sibling = store.descriptors.get? sibling := by
  unfold Store.read
  split
  · rfl
  · exact DescriptorTable.get?_setCursor_of_ne hne _ _

/-- A read into a buffer sets the cursor that it goes through, and no other, however long the
buffer. -/
theorem get?_readUpTo_of_ne (hne : sibling ≠ fd) (store : Store) (most : Nat) :
    (store.readUpTo fd most).2.descriptors.get? sibling = store.descriptors.get? sibling := by
  unfold Store.readUpTo
  split
  · rfl
  · dsimp only
    split
    · exact get?_read_of_ne hne store _
    · rfl

/-- A rewind unsets the cursor of one descriptor, and no other. -/
theorem get?_rewind_of_ne (hne : sibling ≠ fd) (store : Store) :
    (store.rewind fd).2.descriptors.get? sibling = store.descriptors.get? sibling := by
  unfold Store.rewind
  split
  · rfl
  · exact DescriptorTable.get?_setCursor_of_ne hne _ _

/-- Where the file does not get shorter, no cursor is touched: the zeros go behind the last byte,
which is behind every cursor. -/
theorem descriptors_resize {descriptor : Descriptor} {file : File} {size : Nat}
    (hopened : store.opened fd = .ok (descriptor, file)) (hle : file.size ≤ size) :
    (store.resize fd size).2.descriptors = store.descriptors := by
  simp only [Store.resize, hopened, if_pos hle]
  split <;> rfl

end Siblings

/-- Where the file does not get shorter, a call through its descriptor leaves the other
descriptors as they are, those that are open on the same file among them. -/
theorem Sound.get?_perform_of_ne (h : store.Sound) (hopen : store.fileOf fd = some id)
    (hthrough : call.through? = some fd)
    (hkept : ∀ size file, call = .resize fd size → store.file? id = some file → file.size ≤ size)
    {sibling : Nat} (hne : sibling ≠ fd) :
    (store.perform call).2.descriptors.get? sibling = store.descriptors.get? sibling := by
  rcases Call.through?_eq_some_iff.mp hthrough with ⟨data, rfl⟩ | ⟨want, rfl⟩ | ⟨most, rfl⟩ |
    ⟨size, rfl⟩ | rfl | rfl | rfl
  · exact get?_write_of_ne hne store data
  · exact get?_read_of_ne hne store want
  · exact get?_readUpTo_of_ne hne store most
  · obtain ⟨descriptor, hget, rfl⟩ := Option.map_eq_some_iff.mp hopen
    obtain ⟨file, hfile⟩ := h.exists_file hget
    have hstay := descriptors_resize (opened_eq hget hfile) (hkept size file rfl hfile)
    exact congrArg (DescriptorTable.get? · sibling) hstay
  · exact get?_rewind_of_ne hne store
  · rfl
  · rfl

/-- A call through a descriptor is confined to the descriptor's file: the records, blocks and
cursors of the other files stay, and so do the other cursors in this one, unless the file gets
shorter. -/
theorem Sound.confined (h : store.Sound) (hopen : store.fileOf fd = some id)
    (hthrough : call.through? = some fd) : store.Confined call fd id := by
  obtain ⟨bytes, place, hedited⟩ := h.edited_through hopen hthrough
  have helse := hedited.elsewhere
  refine ⟨helse.file?_eq, fun other file hne hfile => helse.chain_eq hne hfile, ?_, ?_, ?_⟩
  · intro other file hne hfile key hkey
    rw [← chainOf_eq hfile] at hkey
    obtain ⟨entry, hentry, rfl⟩ := List.mem_map.mp hkey
    -- The block is of the file's chain, which is the same chain before and after.
    have hbefore := h.storage.stored other entry hentry
    have hkept : entry ∈ (store.perform call).2.chainOf other := by
      rw [helse.chainOf_eq other hne]
      exact hentry
    exact (hedited.sound.storage.stored other entry hkept).trans hbefore.symm
  · exact fun other descriptor hget hne => (helse.get?_iff other descriptor hne).mpr hget
  · exact fun hkept sibling hne => h.get?_perform_of_ne hopen hthrough hkept hne

/-- The answers to those of the calls that satisfy `mine`. -/
def answersTo (store : Store) (mine : Call → Bool) (calls : List Call) :
    List (Except Error Answer) :=
  ((calls.zip (store.performAll calls).1).filter fun entry => mine entry.1).map Prod.snd

/-- The answer to the first call comes before those to the others, if that call is one of those
asked about, and the others are answered by the store that it leaves. -/
theorem answersTo_cons (store : Store) (mine : Call → Bool) (call : Call) (calls : List Call) :
    store.answersTo mine (call :: calls) =
      if mine call then (store.perform call).1 :: (store.perform call).2.answersTo mine calls
      else (store.perform call).2.answersTo mine calls := by
  simp only [answersTo, performAll, List.zip_cons_cons, List.filter_cons]
  split <;> rfl

/-- A call through a descriptor leaves every descriptor open on its file. So it stays settled
which client a later call belongs to. -/
theorem Sound.fileOf_perform (h : store.Sound) (hopen : store.fileOf fd = some id)
    (hthrough : call.through? = some fd) (sibling : Nat) :
    (store.perform call).2.fileOf sibling = store.fileOf sibling := by
  obtain ⟨bytes, place, hedited⟩ := h.edited_through hopen hthrough
  exact hedited.file_eq sibling

/-- The calls marked as `mine` go through descriptors on the file, and the others through
descriptors on other files. -/
def Sorted (store : Store) (id : FileId) (mine : Call → Bool) (calls : List Call) : Prop :=
  ∀ call ∈ calls, ∃ fd other, call.through? = some fd ∧ store.fileOf fd = some other ∧
    (mine call = true ↔ other = id)

/-- A call that is on the same file in two stores, in which the file looks the same, is answered
in the same way, and the file looks the same again, wherever its blocks are in either store. -/
theorem Sound.perform_congr (h : store.Sound) (h' : alone.Sound)
    (hconfig : alone.config = store.config) (hview : alone.view id = store.view id)
    (hopen : store.fileOf fd = some id) (hthrough : call.through? = some fd) :
    (alone.perform call).1 = (store.perform call).1 ∧
      (alone.perform call).2.view id = (store.perform call).2.view id := by
  obtain ⟨view, pos, hseen, hposition⟩ := h.exists_view hopen
  have hseen' := hview.trans hseen
  have hreply := h.perform_through hseen hposition hthrough
  have hreply' := h'.perform_through hseen' hposition hthrough
  rw [hconfig] at hreply'
  refine ⟨hreply'.answer_eq.trans hreply.answer_eq.symm, ?_⟩
  rw [hreply.edited.view_eq h hseen, hreply'.edited.view_eq h' hseen', hconfig]

/-- The calls on a file are answered as they would be without the others, and the file looks as it
would in the end. The induction is on the calls, with the two stores side by side: a call on the
file is made in both, and any other one only in the first. -/
theorem Sound.answersTo_eq {mine : Call → Bool} {calls : List Call} (h : store.Sound)
    (h' : alone.Sound) (hconfig : alone.config = store.config)
    (hview : alone.view id = store.view id) (hsorted : store.Sorted id mine calls) :
    store.answersTo mine calls = (alone.performAll (calls.filter mine)).1 ∧
      (store.performAll calls).2.view id = (alone.performAll (calls.filter mine)).2.view id := by
  induction calls generalizing store alone with
  | nil => exact ⟨rfl, hview.symm⟩
  | cons call calls ih =>
    obtain ⟨⟨fd, other, hthrough, hopen, hmine⟩, hrest⟩ := List.forall_mem_cons.mp hsorted
    have hnext := h.continues call
    have hsorted' : (store.perform call).2.Sorted id mine calls := by
      intro later hlater
      obtain ⟨fd', other', hthrough', hopen', hmine'⟩ := hrest later hlater
      exact ⟨fd', other', hthrough', (h.fileOf_perform hopen hthrough fd').trans hopen', hmine'⟩
    rw [answersTo_cons]
    cases hcall : mine call with
    | true =>
      -- Both stores answer the call, and in the same way.
      cases hmine.mp hcall
      obtain ⟨hanswer, hlooks⟩ := h.perform_congr h' hconfig hview hopen hthrough
      have hnext' := h'.continues call
      have hconfig' := hnext'.config_eq.trans (hconfig.trans hnext.config_eq.symm)
      obtain ⟨hanswers, hend⟩ := ih hnext.sound hnext'.sound hconfig' hlooks hsorted'
      rw [List.filter_cons_of_pos hcall, if_pos rfl, hanswers, ← hanswer]
      exact ⟨rfl, hend⟩
    | false =>
      -- Only one store answers the call, and the file looks as before.
      have hne : id ≠ other := fun heq => by
        rw [hmine.mpr heq.symm] at hcall
        cases hcall
      obtain ⟨bytes, place, hedited⟩ := h.edited_through hopen hthrough
      have hlooks := hview.trans (hedited.elsewhere.view_eq hne).symm
      have hconfig' := hconfig.trans hnext.config_eq.symm
      rw [List.filter_cons_of_neg (by simp [hcall])]
      exact ih hnext.sound h' hconfig' hlooks hsorted'

section Clients

variable {f g : Nat} {mine theirs calls : List Call}

/-- One of two clients gets the answers that it would get alone, and its file looks as it would.
The calls of the other one are those that are left out when it is alone. -/
theorem Sound.client_eq (h : store.Sound) (hf : store.fileOf f = some id)
    (hg : store.fileOf g = some other) (hne : id ≠ other)
    (hmine : ∀ call ∈ mine, call.through? = some f)
    (htheirs : ∀ call ∈ theirs, call.through? = some g) (hcalls : Interleaved mine theirs calls) :
    store.answersTo (fun call => call.through? = some f) calls = (store.performAll mine).1 ∧
      (store.performAll calls).2.view id = (store.performAll mine).2.view id := by
  have hfg : g ≠ f := by
    rintro rfl
    exact hne (Option.some.inj (hf.symm.trans hg))
  have hothers : ∀ call ∈ theirs, decide (call.through? = some f) = false := by
    intro call hcall
    rw [htheirs call hcall]
    exact decide_eq_false fun heq => hfg (Option.some.inj heq)
  have hsorted : store.Sorted id (fun call => call.through? = some f) calls := by
    intro call hcall
    rcases hcalls.mem_or_mem call hcall with hcall | hcall
    · exact ⟨f, id, hmine call hcall, hf, by simp [hmine call hcall]⟩
    · exact ⟨g, other, htheirs call hcall, hg, by simp [hothers call hcall, hne.symm]⟩
  have hfilter := hcalls.filter_eq (fun call hcall => decide_eq_true (hmine call hcall)) hothers
  have hrun := h.answersTo_eq h rfl rfl hsorted
  rwa [hfilter] at hrun

/-- A file that is neither client's looks as it did, after all the calls of both, since every one
of them is on another file. -/
theorem Sound.bystander_eq (h : store.Sound) (hf : store.fileOf f = some id)
    (hg : store.fileOf g = some other) (hmine : ∀ call ∈ mine, call.through? = some f)
    (htheirs : ∀ call ∈ theirs, call.through? = some g) (hcalls : Interleaved mine theirs calls)
    {key : FileId} (hid : id ≠ key) (hother : other ≠ key) :
    (store.performAll calls).2.view key = store.view key := by
  have hsorted : store.Sorted key (fun _ => false) calls := by
    intro call hcall
    rcases hcalls.mem_or_mem call hcall with hcall | hcall
    · exact ⟨f, id, hmine call hcall, hf, by simp [hid]⟩
    · exact ⟨g, other, htheirs call hcall, hg, by simp [hother]⟩
  have hrun := (h.answersTo_eq h rfl rfl hsorted).2
  rwa [List.filter_eq_nil_iff.mpr fun _ _ => Bool.false_ne_true] at hrun

/-- Two clients on different files do not disturb each other. A call through a descriptor is
confined to its file. However the calls of the clients are interleaved, each client gets the answers
that it would get alone, and in the end all files look the same and take as many blocks. -/
theorem Reachable.clients_apart (h : Reachable config store) (hf : store.fileOf f = some id)
    (hg : store.fileOf g = some other) (hne : id ≠ other)
    (hmine : ∀ call ∈ mine, call.through? = some f)
    (htheirs : ∀ call ∈ theirs, call.through? = some g) :
    (∀ fd key call, store.fileOf fd = some key → call.through? = some fd →
        store.Confined call fd key) ∧
      ∀ calls, Interleaved mine theirs calls →
        store.answersTo (fun call => call.through? = some f) calls = (store.performAll mine).1 ∧
        store.answersTo (fun call => call.through? = some g) calls = (store.performAll theirs).1 ∧
        ∀ calls', Interleaved mine theirs calls' →
          (∀ key, (store.performAll calls').2.view key = (store.performAll calls).2.view key) ∧
          (store.performAll calls').2.blockCount = (store.performAll calls).2.blockCount := by
  have hsound := h.sound
  refine ⟨fun _ _ _ hopen hthrough => hsound.confined hopen hthrough, fun calls hcalls => ?_⟩
  have hfirst := fun calls (hcalls : Interleaved mine theirs calls) =>
    hsound.client_eq hf hg hne hmine htheirs hcalls
  have hsecond := fun calls (hcalls : Interleaved mine theirs calls) =>
    hsound.client_eq hg hf hne.symm htheirs hmine hcalls.symm
  refine ⟨(hfirst calls hcalls).1, (hsecond calls hcalls).1, fun calls' hcalls' => ?_⟩
  have hviews : ∀ key,
      (store.performAll calls').2.view key = (store.performAll calls).2.view key := by
    intro key
    -- A file is that of one client, that of the other, or one that neither reaches.
    by_cases hid : id = key
    · subst hid
      exact (hfirst calls' hcalls').2.trans (hfirst calls hcalls).2.symm
    · by_cases hother : other = key
      · subst hother
        exact (hsecond calls' hcalls').2.trans (hsecond calls hcalls).2.symm
      · rw [hsound.bystander_eq hf hg hmine htheirs hcalls' hid hother,
          hsound.bystander_eq hf hg hmine htheirs hcalls hid hother]
  exact ⟨hviews, (hsound.continues_performAll calls).sound.blockCount_eq_of_view_eq
    (hsound.continues_performAll calls').sound hviews⟩

/-- Two clients that give up slots of the shared storage and take slots again, each in between the
calls of the other one. -/
theorem clients_apart_swapping :
    let config : Config := ⟨2, some 6, by decide, by decide⟩
    let store := ((empty config).performAll
      [.openFile "a" true, .openFile "b" true, .write 0 [1, 2, 3], .write 1 [4, 5, 6]]).2
    let mine : List Call := [.resize 0 0, .write 0 [7, 8, 9], .rewind 0, .read 0 4]
    let theirs : List Call := [.resize 1 1, .write 1 [10, 11], .statOpen 1]
    let calls : List Call := [.resize 0 0, .resize 1 1, .write 1 [10, 11], .write 0 [7, 8, 9],
      .statOpen 1, .rewind 0, .read 0 4]
    store.fileOf 0 = some ⟨0, 0⟩ ∧ store.fileOf 1 = some ⟨1, 0⟩ ∧
      Interleaved mine theirs calls ∧
      store.answersTo (fun call => call.through? = some 0) calls = (store.performAll mine).1 ∧
      store.answersTo (fun call => call.through? = some 1) calls
        = (store.performAll theirs).1 := by
  intro config store mine theirs calls
  have h : Reachable config store := reachable_iff_exists_performAll.mpr ⟨_, rfl⟩
  have hf : store.fileOf 0 = some ⟨0, 0⟩ := by decide
  have hg : store.fileOf 1 = some ⟨1, 0⟩ := by decide
  have hmine : ∀ call ∈ mine, call.through? = some 0 := by decide
  have htheirs : ∀ call ∈ theirs, call.through? = some 1 := by decide
  -- The blocks are given up by both clients before either of them takes new ones.
  have hcalls : Interleaved mine theirs calls :=
    .left _ (.right _ (.right _ (.left _ (.right _ (.left _ (.left _ .nil))))))
  obtain ⟨hanswers, hanswers', -⟩ :=
    (h.clients_apart hf hg (by decide) hmine htheirs).2 calls hcalls
  exact ⟨hf, hg, hcalls, hanswers, hanswers'⟩

end Clients

end Store

end Filestore
