import ClipboardHelper.ContentFrames
import ClipboardHelper.LinuxCodec

/-!
# The text frames of the Linux helper

A text leaves the helper in a `CLIPBOARD_CHANGED` frame, and again in the
`CLIPBOARD_CONTENT` frame that answers `GET_CLIPBOARD`.  Both are the same
envelope but for the type (`textFrame`), so **`textFrame_fits_iff`**: a text
fits into either if and only if it leaves room for the overhead.
-/

namespace LinuxCodec

open Library ProtoWire

/-- `EncodeClipboardContentText` of `dispatch.cpp`, the reply to
`GET_CLIPBOARD`. -/
def encodeClipboardContentText (utf8 : Bytes) (clock : UInt64) : Bytes :=
  let inner : Writer := []
  let inner := inner.writeEnumField DispatchCodec.kCDFieldContentType
    DispatchCodec.ClipboardContentType.text.value
  let inner := if utf8 = [] then inner
    else inner.writeBytesField DispatchCodec.kCDFieldPayload utf8
  let w : Writer := []
  let w := w.writeEnumField DispatchCodec.kFieldType
    DispatchCodec.HelperMessageType.clipboardContent.value
  let w := w.writeSubMessageField DispatchCodec.kFieldClipboardData inner
  w.writeUint64Field DispatchCodec.kFieldTimestamp clock

/-- A text in its frame, whose type is the byte `type`. -/
def textFrame (type : UInt8) (utf8 : Bytes) (clock : UInt64) : Bytes :=
  ContentFrames.envelope type (ContentFrames.payloadData 1 utf8) clock

/-- An empty text is left out by hand here, and by `WriteBytesField` there. -/
theorem encodeClipboardDataInnerText_eq (utf8 : Bytes) :
    encodeClipboardDataInnerText utf8 [] = ContentFrames.payloadData 1 utf8 := by
  have htype : Writer.writeEnumField [] DispatchCodec.kCDFieldContentType
      DispatchCodec.ClipboardContentType.text.value = [8, 1] := by decide
  simp only [encodeClipboardDataInnerText, ContentFrames.payloadData, htype, if_true,
    Writer.writeBytesField]
  split
  · rfl
  · rfl

theorem encodeClipboardChangedText_eq (utf8 : Bytes) (clock : UInt64) :
    encodeClipboardChangedText utf8 [] clock = textFrame 10 utf8 clock := by
  have htype : Writer.writeEnumField [] DispatchCodec.kFieldType
      DispatchCodec.HelperMessageType.clipboardChanged.value = [8, 10] := by decide
  rw [encodeClipboardChangedText, htype, encodeClipboardDataInnerText_eq]
  rfl

theorem encodeClipboardContentText_eq (utf8 : Bytes) (clock : UInt64) :
    encodeClipboardContentText utf8 clock = textFrame 12 utf8 clock := by
  have htype : Writer.writeEnumField [] DispatchCodec.kFieldType
      DispatchCodec.HelperMessageType.clipboardContent.value = [8, 12] := by decide
  rw [encodeClipboardContentText, htype, textFrame, ← encodeClipboardDataInnerText_eq]
  rfl

/-- **A text fits into a frame of the cap if and only if it leaves room for
the overhead.** -/
theorem textFrame_fits_iff (type : UInt8) (utf8 : Bytes) (clock : UInt64) :
    (textFrame type utf8 clock).length ≤ 16777216 ↔
      utf8.length + ContentFrames.overhead clock ≤ 16777216 :=
  ContentFrames.payload_fits_iff type 1 utf8 clock

end LinuxCodec
