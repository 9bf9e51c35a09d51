import Filestore.Proofs.Store.Reachable
import Filestore.Proofs.Store.View

/-!
# `Filestore.Proofs.Store.Reply`: what a call through a descriptor does

A call through a descriptor goes by the view of the descriptor's file. `FileView.reply` gives the
answer, the new contents and the new positions from it, without any mention of handles, and
`Sound.perform_through` says that the store does just that and nothing else. What the call answers
does therefore not depend on where the file is in storage, nor on the other files.

`Call.through?` picks out the calls in question: those about an open file that leave it open.
Opening, closing and deleting are not among them, as they change which file a number or a name
leads to.

Every lemma `Sound.replies_*` restates the spec lemma of one call in these terms. Its hypothesis
is that a descriptor is `Seen` at a position, which is how a view and a descriptor in the table
belong together; a cursor that has not touched the file is seen at position zero.
-/

set_option autoImplicit false

namespace Filestore

instance (config : Config) (size : Nat) : Decidable (config.Admits size) :=
  inferInstanceAs (Decidable (∀ limit ∈ config.sizeLimit, size ≤ limit))

/-- The descriptor that a call goes through, if it is about an open file and leaves it open. -/
def Call.through? : Call → Option Nat
  | .write fd _ => some fd
  | .read fd _ => some fd
  | .readUpTo fd _ => some fd
  | .resize fd _ => some fd
  | .rewind fd => some fd
  | .statOpen fd => some fd
  | .digest fd => some fd
  | _ => none

/-- The calls that go through a descriptor, one by one: writes, the two reads, resizes, rewinds,
questions about an open file and digests. -/
theorem Call.through?_eq_some_iff {call : Call} {fd : Nat} :
    call.through? = some fd ↔
      (∃ data, call = .write fd data) ∨ (∃ want, call = .read fd want) ∨
      (∃ most, call = .readUpTo fd most) ∨ (∃ size, call = .resize fd size) ∨
      call = .rewind fd ∨ call = .statOpen fd ∨ call = .digest fd := by
  cases call <;> simp [Call.through?]

/-- What a call through a descriptor does. -/
structure Reply where
  /-- The answer. -/
  answer : Except Error Answer
  /-- The contents of the file afterwards. -/
  contents : Bytes
  /-- Where each descriptor of the file goes from its position. -/
  place : Nat → Nat → Nat

namespace FileView

/-- A reply that leaves the file as it is. -/
def report (view : FileView) (answer : Except Error Answer) : Reply :=
  ⟨answer, view.contents, fun _ place => place⟩

/-- The reply to a read of at most `want` bytes through a descriptor at `pos`. -/
def readReply (view : FileView) (fd pos want : Nat) : Reply :=
  let bytes := (view.contents.drop pos).take want
  { answer := .ok (.data bytes)
    contents := view.contents
    place := fun other place => if other = fd then pos + bytes.length else place }

/-- The reply to a call through a descriptor at `pos`. -/
def reply (config : Config) (view : FileView) (fd pos : Nat) : Call → Reply
  | .write _ data =>
    let count := config.admitted pos data.length
    { answer :=
        if count = 0 ∧ data ≠ [] then
          .error (.fileTooLarge view.stat.name (config.sizeLimit.getD 0))
        else .ok (.count count)
      contents := view.contents.splice pos (data.take count)
      place := fun other place => if other = fd then pos + count else place }
  | .read _ want => view.readReply fd pos want
  | .readUpTo _ most =>
    if min view.stat.size most ≤ Block.maxBuffer then
      view.readReply fd pos (min view.stat.size most)
    else view.report (.error .oversizedBuffer)
  | .resize _ size =>
    if config.Admits size then
      { answer := .ok .done
        contents := FlatStore.resized view.contents size
        place := fun _ place => min place size }
    else view.report (.error (.fileTooLarge view.stat.name (config.sizeLimit.getD 0)))
  | .rewind _ =>
    { answer := .ok .done
      contents := view.contents
      place := fun other place => if other = fd then 0 else place }
  | .statOpen _ => view.report (.ok (.stat view.stat))
  | .digest _ => view.report (.ok (.digest (Digest.ofBytes view.contents)))
  | _ => view.report (.ok .done)

end FileView

namespace Store

/-- A call does to the store what the reply says about one file, and nothing else.

- `answer_eq`: the answer is the one of the reply.
- `edited`: the file has the contents and the positions of the reply, and nothing else changed. -/
structure Replies (store : Store) (call : Call) (id : FileId) (reply : Reply) : Prop where
  answer_eq : (store.perform call).1 = reply.answer
  edited : Edited store (store.perform call).2 id reply.contents reply.place

variable {store : Store} {id : FileId} {fd pos : Nat} {call : Call} {view : FileView}

/-- A descriptor is seen at a position in its file.

- `get?_eq`: the descriptor is in use.
- `file?_eq`: it is open on the file.
- `stands`: it is at the position.
- `stat_eq`: the view has the statistics of the file.
- `contents_eq`: the view has its contents. -/
structure Seen (store : Store) (view : FileView) (fd pos : Nat) (descriptor : Descriptor)
    (file : File) : Prop where
  get?_eq : store.descriptors.get? fd = some descriptor
  file?_eq : store.file? descriptor.file = some file
  stands : (store.chainOf descriptor.file).Stands descriptor.cursor pos
  stat_eq : view.stat = file.stat
  contents_eq : view.contents = (store.chainOf descriptor.file).contents

/-- A position in a view is one at which a descriptor is seen, so a reader of the view alone knows
which numbers are open on the file and where they are. -/
theorem Sound.exists_seen (h : store.Sound) (hview : store.view id = some view)
    (hposition : view.position fd = some pos) :
    ∃ descriptor file, descriptor.file = id ∧ store.Seen view fd pos descriptor file := by
  obtain ⟨file, hfile⟩ := exists_file_of_view hview
  obtain ⟨descriptor, hget, rfl, hstands⟩ := (h.position_eq_some_iff hview).mp hposition
  cases (h.view_eq hfile).symm.trans hview
  exact ⟨descriptor, file, rfl, hget, hfile, hstands, rfl, rfl⟩

section Seen

variable {descriptor : Descriptor} {file : File}

/-- A write answers with the number of bytes that the limit admits at the position, and puts that
many bytes there. Where that is none of some bytes it is refused as too large, under the file's
name. -/
theorem Sound.replies_write (h : store.Sound) (hseen : store.Seen view fd pos descriptor file)
    (data : Bytes) :
    store.Replies (.write fd data) descriptor.file
      (view.reply store.config fd pos (.write fd data)) := by
  obtain ⟨count, hcount, hanswer, -, hedited⟩ :=
    h.write_spec hseen.get?_eq hseen.file?_eq hseen.stands data
  rw [← hseen.contents_eq] at hedited
  simp only [FileView.reply, ← hcount, hseen.stat_eq]
  refine ⟨?_, hedited⟩
  show (store.write fd data).1.map Answer.count = _
  rw [hanswer]
  split <;> rfl

/-- A read answers with the bytes at the position, as many as are asked for or as there are, and
goes past them. -/
theorem Sound.replies_read (h : store.Sound) (hseen : store.Seen view fd pos descriptor file)
    (want : Nat) : store.Replies (.read fd want) descriptor.file (view.readReply fd pos want) := by
  obtain ⟨bytes, rfl, hanswer, -, hedited⟩ := h.read_spec hseen.get?_eq hseen.stands want
  rw [← hseen.contents_eq] at hanswer hedited
  refine ⟨?_, hedited⟩
  show (store.read fd want).1.map Answer.data = _
  rw [hanswer]
  rfl

/-- A call that only reports on the file answers what it answers and leaves the file and all
positions as they are. -/
theorem Sound.replies_report (h : store.Sound) (hseen : store.Seen view fd pos descriptor file)
    {answer : Except Error Answer} (hperform : store.perform call = store.conclude answer) :
    store.Replies call descriptor.file (view.report answer) := by
  refine ⟨congrArg Prod.fst hperform, ?_⟩
  rw [hperform, FileView.report, hseen.contents_eq]
  exact (h.edited_refl descriptor.file).with_lastError _

/-- A read into a buffer is a read of no more bytes than the file has, if there can be a buffer
for them, and is refused otherwise. -/
theorem Sound.replies_readUpTo (h : store.Sound) (hseen : store.Seen view fd pos descriptor file)
    (most : Nat) :
    store.Replies (.readUpTo fd most) descriptor.file
      (view.reply store.config fd pos (.readUpTo fd most)) := by
  have hperform : store.readUpTo fd most
      = if min file.size most ≤ Block.maxBuffer then store.read fd (min file.size most)
        else store.conclude (.error .oversizedBuffer) := by
    simp only [readUpTo, opened_eq hseen.get?_eq hseen.file?_eq]
  simp only [FileView.reply, hseen.stat_eq, File.stat]
  split
  · rename_i hfits
    rw [if_pos hfits] at hperform
    obtain ⟨hanswer, hedited⟩ := h.replies_read hseen (min file.size most)
    refine ⟨?_, ?_⟩ <;> simp only [perform, hperform]
    · exact hanswer
    · exact hedited
  · rename_i hlarge
    rw [if_neg hlarge] at hperform
    refine h.replies_report hseen ?_
    simp only [perform, hperform]
    rfl

/-- A resize to an allowed size cuts the bytes or appends zeros, and takes the positions past the
end back to it. Any other size is refused as too large, under the file's name. -/
theorem Sound.replies_resize (h : store.Sound) (hseen : store.Seen view fd pos descriptor file)
    (size : Nat) :
    store.Replies (.resize fd size) descriptor.file
      (view.reply store.config fd pos (.resize fd size)) := by
  simp only [FileView.reply]
  rcases h.resize_spec hseen.get?_eq hseen.file?_eq size with
    ⟨hadmits, hresize⟩ | ⟨hadmits, hanswer, -, hedited⟩
  · rw [if_neg hadmits]
    refine h.replies_report hseen ?_
    simp only [perform, hresize, hseen.stat_eq]
    rfl
  · rw [if_pos hadmits]
    rw [← hseen.contents_eq] at hedited
    refine ⟨?_, hedited⟩
    show (store.resize fd size).1.map (fun _ => Answer.done) = _
    rw [hanswer]
    rfl

/-- A rewind goes to position zero and leaves the other descriptors where they are. -/
theorem Sound.replies_rewind (h : store.Sound) (hseen : store.Seen view fd pos descriptor file) :
    store.Replies (.rewind fd) descriptor.file
      (view.reply store.config fd pos (.rewind fd)) := by
  obtain ⟨hanswer, -, hedited⟩ := h.rewind_spec hseen.get?_eq
  rw [← hseen.contents_eq] at hedited
  exact ⟨congrArg (Except.map fun _ => Answer.done) hanswer, hedited⟩

/-- A question about an open file is answered by the statistics that the view has. -/
theorem Sound.replies_statOpen (h : store.Sound) (hseen : store.Seen view fd pos descriptor file) :
    store.Replies (.statOpen fd) descriptor.file
      (view.reply store.config fd pos (.statOpen fd)) := by
  refine h.replies_report hseen ?_
  simp only [perform, statOpen, opened_eq hseen.get?_eq hseen.file?_eq, hseen.stat_eq, conclude,
    Except.map, Prod.map, id_eq, resultKind]

/-- A digest of an open file is that of the contents that the view has, wherever the cursor is. -/
theorem Sound.replies_digest (h : store.Sound) (hseen : store.Seen view fd pos descriptor file) :
    store.Replies (.digest fd) descriptor.file
      (view.reply store.config fd pos (.digest fd)) := by
  have hbytes : file.contents store.blocks = view.contents :=
    (h.spans hseen.file?_eq).contents_eq.trans hseen.contents_eq.symm
  refine h.replies_report hseen ?_
  simp only [perform, Store.digest, opened_eq hseen.get?_eq hseen.file?_eq, hbytes, conclude,
    Except.map, Prod.map, id_eq, resultKind]

end Seen

/-- A call through a descriptor does what the view of its file says. Every such call is one of the
seven cases above. -/
theorem Sound.perform_through (h : store.Sound) (hview : store.view id = some view)
    (hposition : view.position fd = some pos) (hthrough : call.through? = some fd) :
    store.Replies call id (view.reply store.config fd pos call) := by
  obtain ⟨descriptor, file, rfl, hseen⟩ := h.exists_seen hview hposition
  rcases Call.through?_eq_some_iff.mp hthrough with ⟨data, rfl⟩ | ⟨want, rfl⟩ | ⟨most, rfl⟩ |
    ⟨size, rfl⟩ | rfl | rfl | rfl
  · exact h.replies_write hseen data
  · exact h.replies_read hseen want
  · exact h.replies_readUpTo hseen most
  · exact h.replies_resize hseen size
  · exact h.replies_rewind hseen
  · exact h.replies_statOpen hseen
  · exact h.replies_digest hseen

end Store

end Filestore
