import ClipboardHelper.WireIntegers

/-!
# A message as a sequence of fields

The loops of `dispatch_codec.cpp` differ in what they keep; what they read is
the same.  `readField` reads one field whatever it is, `fieldsOf` the fields
of a whole buffer, and a parser is a fold over them (`parse_eq_fold`).

Reading is local: a reader that succeeds has read one piece of the buffer,
and would have read the same piece anywhere else (`Local`).  So the fields of
a buffer are those of the pieces it is put together from
(`fieldsOf_eq_some_iff`), whatever stands before and behind them.
-/

namespace ProtoWire

open Library Library.Base128 WireIntegers

/-! ## Local readers -/

/-- Wherever `piece` stands in a buffer, the reader reads exactly `piece`. -/
def Reads {β : Type} (read : Reader → Option (β × Reader)) (piece : Bytes) (value : β) : Prop :=
  ∀ (data rest : Bytes) (pos : Nat), data.drop pos = piece ++ rest →
    read ⟨data, pos⟩ = some (value, ⟨data, pos + piece.length⟩)

/-- Whatever the reader reads is a piece of the buffer. -/
def Local {β : Type} (read : Reader → Option (β × Reader)) : Prop :=
  ∀ (r after : Reader) (value : β), read r = some (value, after) →
    ∃ piece rest, r.data.drop r.pos = piece ++ rest ∧ Reads read piece value
      ∧ after = { r with pos := r.pos + piece.length }

section Locality

variable {β γ : Type}

/-- One read behind the other. -/
theorem Local.bind {read : Reader → Option (β × Reader)}
    {next : β → Reader → Option (γ × Reader)} (hread : Local read)
    (hnext : ∀ value, Local (next value)) :
    Local (fun r => (read r).bind (fun (value, r) => next value r)) := by
  intro r after out h
  rw [Option.bind_eq_some_iff] at h
  obtain ⟨⟨value, mid⟩, hfirst, hsecond⟩ := h
  obtain ⟨front, rest, hdata, hfront, rfl⟩ := hread r mid value hfirst
  obtain ⟨back, rest', hdata', hback, rfl⟩ := hnext value _ after out hsecond
  have hrest : rest = back ++ rest' := by
    rw [← hdata', drop_add_length hdata]
  subst hrest
  refine ⟨front ++ back, rest', by rw [hdata, List.append_assoc], ?_, ?_⟩
  · intro data tail pos hpiece
    rw [List.append_assoc] at hpiece
    dsimp only
    rw [hfront data _ pos hpiece, Option.bind_some,
      hback data tail _ (drop_add_length hpiece), List.length_append, Nat.add_assoc]
  · rw [List.length_append, Nat.add_assoc]

theorem Local.map {read : Reader → Option (β × Reader)} (hread : Local read) (f : β → γ) :
    Local (fun r => (read r).map (fun (value, r) => (f value, r))) := by
  intro r after out h
  rw [Option.map_eq_some_iff] at h
  obtain ⟨⟨value, mid⟩, hfirst, heq⟩ := h
  rw [Prod.mk.injEq] at heq
  obtain ⟨rfl, rfl⟩ := heq
  obtain ⟨piece, rest, hdata, hpiece, rfl⟩ := hread r mid value hfirst
  refine ⟨piece, rest, hdata, ?_, rfl⟩
  intro data tail pos hat
  dsimp only
  rw [hpiece data tail pos hat, Option.map_some]

/-- A reader that fails is local. -/
theorem Local.none : Local (fun _ => (none : Option (β × Reader))) := by
  intro r after value h
  cases h

/-- Taking a fixed number of bytes. -/
def readBytes (n : Nat) (r : Reader) : Option (Bytes × Reader) :=
  if r.remaining < n then none
  else some ((r.data.drop r.pos).take n, { r with pos := r.pos + n })

theorem readBytes_local (n : Nat) : Local (readBytes n) := by
  intro r after value h
  rw [readBytes] at h
  by_cases hroom : r.remaining < n
  · rw [if_pos hroom] at h
    cases h
  · rw [if_neg hroom, Option.some.injEq, Prod.mk.injEq] at h
    rw [Reader.remaining] at hroom
    have hlen : ((r.data.drop r.pos).take n).length = n := by
      rw [List.length_take, List.length_drop]
      omega
    obtain ⟨rfl, rfl⟩ := h
    refine ⟨(r.data.drop r.pos).take n, (r.data.drop r.pos).drop n,
      (List.take_append_drop _ _).symm, ?_, by rw [hlen]⟩
    intro data rest pos hdata
    have hroom' := congrArg List.length hdata
    rw [List.length_drop, List.length_append, hlen] at hroom'
    have hfits : ¬ Reader.remaining ⟨data, pos⟩ < n := by
      change ¬ data.length - pos < n
      omega
    rw [readBytes, if_neg hfits]
    dsimp only
    rw [hdata, List.take_append_of_le_length (by omega), List.take_take, Nat.min_self, hlen]

theorem readVarint_local : Local Reader.readVarint := by
  intro r after value h
  obtain ⟨num, hnum, hlen, hread, -⟩ | ⟨-, hread, -⟩ := read_cases r
  · obtain ⟨rest, hdata, hprefix⟩ := numeral_eq_some hnum
    rw [hread, Option.some.injEq, Prod.mk.injEq] at h
    obtain ⟨rfl, rfl⟩ := h
    refine ⟨num, rest, hdata, ?_, rfl⟩
    intro data tail pos hat
    have hnum' : numeralAt ⟨data, pos⟩ = some num := by
      rw [numeralAt, hat]
      exact hprefix tail
    rw [readVarint_eq, hnum']
    simp only [if_pos hlen]
  · rw [hread] at h
    cases h

end Locality

/-! ## Fields -/

/-- What stands behind a tag. -/
inductive Body where
  | varint (value : UInt64)
  | fixed64 (bytes : Bytes)
  | slice (bytes : Bytes)
  | fixed32 (bytes : Bytes)
deriving DecidableEq, Repr

def Body.wire : Body → WireType
  | .varint _ => .varint
  | .fixed64 _ => .fixed64
  | .slice _ => .lengthDelim
  | .fixed32 _ => .fixed32

/-- A field: the number that `ReadTag` reports, and the body. -/
structure Field where
  number : UInt32
  body : Body
deriving DecidableEq, Repr

/-- The body of a field of a wire type: what `SkipField` passes over. -/
def readBody (wire : WireType) (r : Reader) : Option (Body × Reader) :=
  if wire = .varint then r.readVarint.map (fun (v, r) => (.varint v, r))
  else if wire = .fixed64 then (readBytes 8 r).map (fun (d, r) => (.fixed64 d, r))
  else if wire = .lengthDelim then r.readLengthDelim.map (fun (d, r) => (.slice d, r))
  else if wire = .fixed32 then (readBytes 4 r).map (fun (d, r) => (.fixed32 d, r))
  else none

theorem readBody_varint (r : Reader) :
    readBody .varint r = r.readVarint.map (fun (v, r) => (.varint v, r)) := rfl

theorem readBody_lengthDelim (r : Reader) :
    readBody .lengthDelim r = r.readLengthDelim.map (fun (d, r) => (.slice d, r)) := rfl

/-- One field: a tag and its body. -/
def readField (r : Reader) : Option (Field × Reader) :=
  r.readTag.bind (fun (number, wire, r) =>
    (readBody wire r).map (fun (body, r) => (⟨number, body⟩, r)))

/-- The byte string is one field. -/
def IsField (piece : Bytes) (f : Field) : Prop :=
  readField ⟨piece, 0⟩ = some (f, ⟨piece, piece.length⟩)

/-- **Skipping a field reads its body.** -/
theorem skipField_eq (wire : WireType) (r : Reader) :
    r.skipField wire = (readBody wire r).map Prod.snd := by
  have hfixed (n : Nat) (f : Bytes → Body) :
      (if r.remaining < n then none else some { r with pos := r.pos + n }) =
        ((readBytes n r).map (fun (d, r) => (f d, r))).map Prod.snd := by
    rw [readBytes]
    split
    · rfl
    · rfl
  unfold Reader.skipField readBody
  split
  · cases r.readVarint <;> rfl
  split
  · exact hfixed 8 .fixed64
  split
  · cases r.readLengthDelim <;> rfl
  split
  · exact hfixed 4 .fixed32
  rfl

theorem readTag_local :
    Local (fun r => r.readTag.map (fun (number, wire, r) => ((number, wire), r))) := by
  have h := readVarint_local.map (fun tag : UInt64 =>
    ((tag >>> 3).toUInt32, (⟨(tag &&& 0x07).toUInt8⟩ : WireType)))
  have heq : (fun r : Reader => r.readTag.map (fun (number, wire, r) => ((number, wire), r))) =
      (fun r => r.readVarint.map (fun (tag, r) =>
        (((tag >>> 3).toUInt32, (⟨(tag &&& 0x07).toUInt8⟩ : WireType)), r))) := by
    funext r
    rw [Reader.readTag]
    cases r.readVarint <;> rfl
  rw [heq]
  exact h

theorem readLengthDelim_local : Local Reader.readLengthDelim := by
  have heq : Reader.readLengthDelim =
      (fun r => r.readVarint.bind (fun (len, r) => readBytes len.toNat r)) := by
    funext r
    rw [Reader.readLengthDelim]
    cases r.readVarint <;> rfl
  rw [heq]
  exact readVarint_local.bind (fun len => readBytes_local len.toNat)

theorem readBody_local (wire : WireType) : Local (readBody wire) := by
  unfold readBody
  by_cases hvarint : wire = .varint
  · simp only [if_pos hvarint]
    exact readVarint_local.map _
  by_cases hfixed64 : wire = .fixed64
  · simp only [if_neg hvarint, if_pos hfixed64]
    exact (readBytes_local 8).map _
  by_cases hslice : wire = .lengthDelim
  · simp only [if_neg hvarint, if_neg hfixed64, if_pos hslice]
    exact readLengthDelim_local.map _
  by_cases hfixed32 : wire = .fixed32
  · simp only [if_neg hvarint, if_neg hfixed64, if_neg hslice, if_pos hfixed32]
    exact (readBytes_local 4).map _
  · simp only [if_neg hvarint, if_neg hfixed64, if_neg hslice, if_neg hfixed32]
    exact Local.none

/-- **Reading a field is local.** -/
theorem readField_local : Local readField := by
  have heq : readField = (fun r =>
      (r.readTag.map (fun (number, wire, r) => ((number, wire), r))).bind
        (fun (tag, r) => (readBody tag.2 r).map (fun (body, r) => (⟨tag.1, body⟩, r)))) := by
    funext r
    rw [readField]
    cases r.readTag <;> rfl
  rw [heq]
  exact readTag_local.bind (fun tag => (readBody_local tag.2).map (Field.mk tag.1))

/-- A field reads the same wherever it stands. -/
theorem IsField.reads {piece : Bytes} {f : Field} (h : IsField piece f) :
    Reads readField piece f := by
  obtain ⟨piece', rest, hdata, hreads, hend⟩ := readField_local _ _ _ h
  have hpiece : piece = piece' ++ rest := hdata
  have hend' : piece.length = 0 + piece'.length := congrArg Reader.pos hend
  have hlen := congrArg List.length hpiece
  rw [List.length_append] at hlen
  have hrest : rest = [] := List.eq_nil_of_length_eq_zero (by omega)
  rw [hpiece, hrest, List.append_nil]
  exact hreads

theorem IsField.of_reads {piece : Bytes} {f : Field} (h : Reads readField piece f) :
    IsField piece f := by
  have hat := h piece [] 0 (by simp)
  rwa [Nat.zero_add] at hat

/-! ## The fields of a buffer -/

/-- The handler that keeps every field. -/
def keepField : OnField (List Field) := fun out number wire r =>
  (readBody wire r).map (fun (body, r) => (out ++ [⟨number, body⟩], r))

/-- The fields of a buffer, unless it is malformed. -/
def fieldsOf (data : Bytes) : Option (List Field) := parse keepField data []

/-- A byte string put together from fields. -/
inductive Made : Bytes → List Field → Prop
  | nil : Made [] []
  | cons {piece data : Bytes} {f : Field} {fs : List Field} :
      IsField piece f → Made data fs → Made (piece ++ data) (f :: fs)

theorem Made.append {a b : Bytes} {fs gs : List Field} (ha : Made a fs) (hb : Made b gs) :
    Made (a ++ b) (fs ++ gs) := by
  induction ha with
  | nil => exact hb
  | cons hpiece _ ih =>
      rw [List.append_assoc, List.cons_append]
      exact .cons hpiece ih

/-- What the loop does when a tag is read. -/
theorem parseFields_field {α : Type} {onField : OnField α} {n : Nat} {out : α} {r : Reader}
    (hmore : r.eof = false) :
    parseFields onField (n + 1) out r =
      r.readTag.bind (fun (number, wire, r) =>
        (onField out number wire r).bind (fun (out, r) => parseFields onField n out r)) := by
  rw [parseFields, hmore]
  cases r.readTag with
  | none => rfl
  | some tag =>
      obtain ⟨number, wire, r'⟩ := tag
      simp only [Bool.false_eq_true, if_false, Option.bind_some]
      cases onField out number wire r' <;> rfl

/-- The loop that keeps the fields reads one field a round. -/
theorem parseFields_keepField {n : Nat} {out : List Field} {r : Reader} (hmore : r.eof = false) :
    parseFields keepField (n + 1) out r =
      (readField r).bind (fun (f, r) => parseFields keepField n (out ++ [f]) r) := by
  rw [parseFields_field hmore, readField]
  cases r.readTag with
  | none => rfl
  | some tag =>
      obtain ⟨number, wire, r'⟩ := tag
      simp only [Option.bind_some, keepField]
      cases readBody wire r' <;> rfl

theorem readField_consumes {r after : Reader} {f : Field} (h : readField r = some (f, after)) :
    r.pos < after.pos := by
  rw [readField, Option.bind_eq_some_iff] at h
  obtain ⟨⟨number, wire, mid⟩, htag, hbody⟩ := h
  have htagpos : r.pos < mid.pos := by
    obtain ⟨num, hnum, -, -, hread⟩ | ⟨-, -, hread⟩ := read_cases r
    · have hpos := length_numeral_pos hnum
      rw [hread] at htag
      simp only [Option.some.injEq, Prod.mk.injEq] at htag
      obtain ⟨-, -, rfl⟩ := htag
      change r.pos < r.pos + num.length
      omega
    · rw [hread] at htag
      cases htag
  rw [Option.map_eq_some_iff] at hbody
  obtain ⟨⟨body, last⟩, hread, heq⟩ := hbody
  rw [Prod.mk.injEq] at heq
  obtain ⟨piece, -, -, -, hlast⟩ := readBody_local wire mid last body hread
  have hle : mid.pos ≤ last.pos := by
    rw [hlast]
    exact Nat.le_add_right _ _
  rw [← heq.2]
  omega

theorem IsField.length_pos {piece : Bytes} {f : Field} (h : IsField piece f) :
    0 < piece.length :=
  readField_consumes h

/-- The loop reads a buffer put together from fields. -/
theorem Made.absorbs {data : Bytes} {fs : List Field} (h : Made data fs) (out : List Field) :
    Absorbs keepField data out (out ++ fs) := by
  induction h generalizing out with
  | nil =>
      rw [List.append_nil]
      exact .nil
  | @cons piece data f fs hpiece _ ih =>
      have hfield : Absorbs keepField piece out (out ++ [f]) := by
        intro data rest pos fuel hdata hfuel
        have hpos := hpiece.length_pos
        rw [List.length_append] at hfuel
        obtain ⟨n, rfl⟩ : ∃ n, fuel = n + 1 := ⟨fuel - 1, by omega⟩
        refine ⟨n, by omega, ?_⟩
        have hmore : Reader.eof ⟨data, pos⟩ = false := by
          have hlen := congrArg List.length hdata
          simp only [List.length_drop, List.length_append] at hlen
          simp only [Reader.eof, decide_eq_false_iff_not]
          omega
        rw [parseFields_keepField hmore, hpiece.reads data rest pos hdata, Option.bind_some]
      have htail := ih (out ++ [f])
      rw [List.append_assoc, List.singleton_append] at htail
      exact hfield.append htail

/-- The loop reads only buffers put together from fields: by induction on the
rounds. -/
theorem made_of_parseFields (n : Nat) :
    ∀ {out out' : List Field} {r : Reader}, parseFields keepField n out r = some out' →
      ∃ fs, out' = out ++ fs ∧ Made (r.data.drop r.pos) fs := by
  have hend {out out' : List Field} {r : Reader} (heof : r.eof = true)
      (h : some out = some out') : ∃ fs, out' = out ++ fs ∧ Made (r.data.drop r.pos) fs := by
    rw [Option.some.injEq] at h
    rw [List.drop_eq_nil_of_le (of_decide_eq_true heof)]
    exact ⟨[], by rw [h, List.append_nil], .nil⟩
  induction n with
  | zero =>
      intro out out' r h
      rw [parseFields] at h
      cases heof : r.eof with
      | true =>
          rw [heof] at h
          exact hend heof h
      | false =>
          rw [heof] at h
          cases h
  | succ n ih =>
      intro out out' r h
      cases heof : r.eof with
      | true =>
          rw [parseFields, heof] at h
          exact hend heof h
      | false =>
          rw [parseFields_keepField heof, Option.bind_eq_some_iff] at h
          obtain ⟨⟨f, after⟩, hread, hrest⟩ := h
          obtain ⟨fs, rfl, hmade⟩ := ih hrest
          obtain ⟨piece, rest, hdata, hreads, rfl⟩ := readField_local r after f hread
          rw [drop_add_length hdata] at hmade
          refine ⟨f :: fs, by simp, ?_⟩
          rw [hdata]
          exact .cons (.of_reads hreads) hmade

/-- **The fields of a buffer** are those it is put together from. -/
theorem fieldsOf_eq_some_iff {data : Bytes} {fs : List Field} :
    fieldsOf data = some fs ↔ Made data fs := by
  constructor
  · intro h
    obtain ⟨fs', hfs, hmade⟩ := made_of_parseFields data.length h
    rw [List.nil_append] at hfs
    rw [hfs]
    exact hmade
  · intro h
    exact (h.absorbs []).parse

end ProtoWire
