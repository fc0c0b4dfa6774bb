import DirectoryAccess.Message
import DirectoryAccess.Proofs.Ber.Writer

/-!
# Operations and messages written to a stream

An extended request and a message are written piece by piece, all else through its
element. Both ways give the same octets, behind whatever the writer has written and
inside whatever it has opened (`write_eq_append_encode`).
-/

namespace DirectoryAccess

open Ber (Element Tag Writer)

/-- An extended request is written as its element is. -/
theorem ExtendedRequest.write_eq_element (w : Writer) (request : ExtendedRequest) :
    write w request = w.element (encode request) := by
  have hparts : write w request =
      ((Element.text oidTag request.oid.text ::
        request.value.toList.map (Element.mk valueTag)).foldl Writer.element
          (w.openSequence Kind.extendedRequest.tag)).closeSequence := by
    rcases request with ⟨oid, _ | value⟩
    · rfl
    · rfl
  rw [hparts, Writer.closeSequence_foldl_element]
  rfl

/-- An operation is written as its element is. -/
theorem Operation.write_eq_element (w : Writer) (op : Operation) :
    op.write w = w.element op.encode := by
  obtain ⟨kind, body⟩ := op
  cases kind with
  | extendedRequest => exact ExtendedRequest.write_eq_element w body
  | _ => rfl

/-- A message is written as its element is. -/
theorem Message.write_eq_element (w : Writer) (message : Message) :
    message.write w = w.element message.encode := by
  have hparts : message.write w =
      (([.integer Tag.integer message.id.toInt, message.op.encode] ++
        (if message.controls.isEmpty then []
          else [Control.encodeList controlsTag message.controls])).foldl Writer.element
            (w.openSequence Tag.sequence)).closeSequence := by
    rw [write, Operation.write_eq_element]
    split
    · rfl
    · rfl
  rw [hparts, Writer.closeSequence_foldl_element]
  rfl

/-- **Streams and elements agree on what is written.** Whatever a writer has written, and whatever
sequences are open in it, an operation or a message that is written to it puts the octets of its
element behind that and leaves all else as it was: the octets before and the places where the open
sequences start. -/
theorem write_eq_append_encode :
    (∀ (w : Writer) (op : Operation),
      op.write w = { w with output := w.output ++ op.encode.encode }) ∧
    ∀ (w : Writer) (message : Message),
      message.write w = { w with output := w.output ++ message.encode.encode } :=
  ⟨Operation.write_eq_element, Message.write_eq_element⟩

end DirectoryAccess
