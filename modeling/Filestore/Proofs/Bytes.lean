import Filestore.Bytes

/-!
# `Filestore.Proofs.Bytes`: bytes put over others

`Bytes.splice bytes pos src` is the byte string after `src` is stored from position `pos` on, over
the bytes there and past their end. Storing two pieces one after the other is storing them as one
(`splice_splice`), so it does not matter into how many steps a write is divided.

A block changes by `Block.writeAt` and a file by `splice`, and `splice_append` joins the two: a
splice within one of three segments is a splice of the whole, provided it does not run over the
end of its segment into the one after it. A write never does, since it ends at the end of a block
and goes on in the next one; and in the last segment there is nothing to run into.

All lemmas but one ask for a position within the bytes. Past their end `List.take` and `List.drop`
would move the bytes to the end instead of leaving a gap, and no cursor ever stands there.
-/

set_option autoImplicit false

namespace Filestore

namespace Bytes

/-- The bytes `src` from position `pos` on, over the bytes there and past their end. -/
def splice (bytes : Bytes) (pos : Nat) (src : Bytes) : Bytes :=
  bytes.take pos ++ src ++ bytes.drop (pos + src.length)

/-- Nothing is put over anything, at any position, also past the end. -/
@[simp] theorem splice_nil (bytes : Bytes) (pos : Nat) : bytes.splice pos [] = bytes := by
  simp [splice]

/-- A byte string gets longer only by what goes past its end, so a write within a file leaves its
size. -/
theorem length_splice {bytes : Bytes} {pos : Nat} (h : pos ≤ bytes.length) (src : Bytes) :
    (bytes.splice pos src).length = max bytes.length (pos + src.length) := by
  simp only [splice, List.length_append, List.length_take, List.length_drop]
  omega

/-- Bytes before the position and bytes past those that are put there stay. This is the frame of a
write: nothing outside its segment changes. -/
theorem getElem?_splice {bytes src : Bytes} {pos i : Nat} (h : pos ≤ bytes.length)
    (hi : i < pos ∨ pos + src.length ≤ i) : (bytes.splice pos src)[i]? = bytes[i]? := by
  have hlength : (bytes.take pos ++ src).length = pos + src.length := by
    rw [List.length_append, List.length_take, Nat.min_eq_left h]
  rcases hi with hlt | hge
  · rw [splice, List.append_assoc, List.getElem?_append_left (by rw [List.length_take]; omega),
      List.getElem?_take_of_lt hlt]
  · rw [splice, List.getElem?_append_right (by rw [hlength]; exact hge), hlength,
      List.getElem?_drop]
    congr 1
    omega

/-- Two pieces, the second right after the first, are one. From this a write in steps is followed
by induction over the steps, with what has been written so far as one piece. -/
theorem splice_splice {bytes : Bytes} {pos : Nat} (h : pos ≤ bytes.length) (src more : Bytes) :
    (bytes.splice pos src).splice (pos + src.length) more = bytes.splice pos (src ++ more) := by
  -- The second piece leaves the bytes before it, which are the first piece and what is before that.
  have hlength : (bytes.take pos ++ src).length = pos + src.length := by
    rw [List.length_append, List.length_take, Nat.min_eq_left h]
  have hfront : (bytes.splice pos src).take (pos + src.length) = bytes.take pos ++ src := by
    rw [splice, ← hlength, List.take_left']
    rfl
  have hback : (bytes.splice pos src).drop (pos + src.length + more.length)
      = bytes.drop (pos + (src ++ more).length) := by
    rw [splice, ← hlength, List.drop_append, hlength, List.drop_of_length_le (by omega),
      List.nil_append, List.drop_drop, List.length_append]
    congr 1
    omega
  rw [splice, hfront, hback, splice, List.append_assoc (bytes.take pos)]

/-- Putting bytes over a segment between two others puts them over the whole, at the position that
the offset in the segment has there. The segment must have room for them, or be the last. -/
theorem splice_append {front bytes back : Bytes} {offset : Nat} (src : Bytes)
    (hoffset : offset ≤ bytes.length) (hfits : offset + src.length ≤ bytes.length ∨ back = []) :
    (front ++ (bytes ++ back)).splice (front.length + offset) src
      = front ++ (bytes.splice offset src ++ back) := by
  have htake : (front ++ (bytes ++ back)).take (front.length + offset)
      = front ++ bytes.take offset := by
    rw [List.take_length_add_append, List.take_append_of_le_length hoffset]
  have hdrop : (front ++ (bytes ++ back)).drop (front.length + offset + src.length)
      = bytes.drop (offset + src.length) ++ back := by
    rw [Nat.add_assoc, List.drop_length_add_append, List.drop_append]
    rcases hfits with hfits | rfl
    · rw [Nat.sub_eq_zero_of_le hfits, List.drop_zero]
    · rw [List.drop_nil]
  rw [splice, htake, hdrop, splice]
  simp only [List.append_assoc]

end Bytes

end Filestore
