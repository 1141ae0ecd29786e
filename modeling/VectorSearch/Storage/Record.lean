import VectorSearch.Index.Shard
import VectorSearch.Lib.Crc32
import VectorSearch.Lib.FramedLog

namespace VectorSearch

/-!
# Write-ahead log records

The byte layout of `storage.py`: a record's body is its seq, count and
dimension, the global ids, the vectors and, only when some vector has a
payload, the payload texts behind their lengths.  `encodeRecord` is what
`WriteAheadLog.append` writes, `decodeBody` and `parsePayloads` are the body
part of `_read_records`; the loop around them is the reader of framed logs.

A `Write` is a batch as a shard applies it, with everything that makes its
record well formed.  The encoder itself is defined on arbitrary arguments,
because the server can call it with counts that do not agree.
-/

/-- A float32 scalar, as its bit pattern. -/
abbrev Float32Bits := UInt32

/-- The exponent of NaN and of the infinities is all ones. -/
def Float32Bits.isFinite (value : Float32Bits) : Bool := decide (value.toNat / 2 ^ 23 % 2 ^ 8 < 2 ^ 8 - 1)

/-- A two-dimensional array of shape `(rows.length, dim)`. -/
@[ext] structure Matrix (F : Type) where
  dim : Nat
  rows : List (List F)
  shape : ∀ row ∈ rows, row.length = dim

namespace Matrix

variable {F : Type}

/-- `np.asarray(values).reshape(-1, dim)`. -/
def reshape (values : List F) (dim : Int) : Except Error (Matrix F) :=
  if 0 < dim ∧ values.length % dim.toNat = 0 then
    .ok {
      dim := dim.toNat
      rows := LittleEndian.readMany dim.toNat id (values.length / dim.toNat) values
      shape := LittleEndian.readMany_widths _ _ _ (Nat.div_mul_le_self _ _) }
  else .error .shape

/-- `array.ravel()`. -/
def ravel (matrix : Matrix F) : List F := matrix.rows.flatten

theorem ravel_length (matrix : Matrix F) :
    matrix.ravel.length = matrix.dim * matrix.rows.length := by
  have := LittleEndian.flatMap_length matrix.dim id matrix.rows matrix.shape
  simpa only [ravel, List.flatMap_id] using this

theorem reshape_ravel (matrix : Matrix F) (positive : 0 < matrix.dim) :
    reshape matrix.ravel matrix.dim = .ok matrix := by
  have length := matrix.ravel_length
  have count : matrix.ravel.length / matrix.dim = matrix.rows.length := by
    rw [length, Nat.mul_div_cancel_left _ positive]
  have divides : 0 < (matrix.dim : Int) ∧ matrix.ravel.length % (matrix.dim : Int).toNat = 0 := by
    refine ⟨by omega, ?_⟩
    rw [Int.toNat_natCast, length, Nat.mul_mod_right]
  have rows : LittleEndian.readMany matrix.dim id matrix.rows.length matrix.ravel =
      matrix.rows := by
    have read := LittleEndian.readMany_flatMap matrix.dim id id matrix.rows []
      matrix.shape (fun _ _ => rfl)
    rw [List.append_nil, List.flatMap_id] at read
    exact read
  rw [reshape, if_pos divides]
  simp only [Int.toNat_natCast, count, rows]

end Matrix

/-! ## Encoding -/

/-- `text.encode("utf-8")`. -/
def encodeUtf8 (text : String) : Bytes := text.toUTF8.data.toList

/-- `bytes.decode("utf-8")`. -/
def decodeUtf8 (bytes : Bytes) : Except Error String :=
  match String.fromUTF8? ⟨bytes.toArray⟩ with
  | some text => .ok text
  | none => .error .unicodeDecode

theorem decodeUtf8_encodeUtf8 (text : String) : decodeUtf8 (encodeUtf8 text) = .ok text := by
  have valid : (text.toUTF8).IsValidUTF8 := text.isValidUTF8
  have bytes : (⟨(encodeUtf8 text).toArray⟩ : ByteArray) = text.toUTF8 := by
    simp only [encodeUtf8, Array.toArray_toList]
  unfold decodeUtf8
  rw [bytes]
  simp only [String.fromUTF8?, dif_pos valid]
  rfl

def fitsInt64 (id : Int) : Bool := decide (-2 ^ 63 ≤ id ∧ id < 2 ^ 63)

/-- `[length: u32][payload]` for each text. -/
def payloadSection (payloads : List String) : Bytes :=
  payloads.flatMap fun payload =>
    LittleEndian.encode 4 (encodeUtf8 payload).length ++ encodeUtf8 payload

/-- The body of a record, field after field. -/
def recordBody (seq : Nat) (globalIds : List Int) (vectors : Matrix Float32Bits)
    (payloads : List String) : Bytes :=
  LittleEndian.encode 8 seq ++ LittleEndian.encode 4 vectors.rows.length ++
    LittleEndian.encode 4 vectors.dim ++ globalIds.flatMap (LittleEndian.encodeInt 8) ++
    vectors.ravel.flatMap (fun value => LittleEndian.encode 4 value.toNat) ++
    if payloads.any (· != "") then payloadSection payloads else []

/-- The bytes `WriteAheadLog.append` writes, or the exception it raises before
writing any. -/
def encodeRecord (seq : Nat) (globalIds : List Int) (vectors : Matrix Float32Bits)
    (payloads : List String) : Except Error Bytes :=
  let body := recordBody seq globalIds vectors payloads
  if !globalIds.all fitsInt64 then .error .overflow
  else if seq < 2 ^ 64 ∧ vectors.rows.length < 2 ^ 32 ∧ vectors.dim < 2 ^ 32 ∧
      body.length < 2 ^ 32 then
    .ok (FramedLog.frame crc32 body)
  else .error .struct

/-! ## Decoding -/

/-- One parsed record: `(seq, ids, vectors, payloads)`. -/
@[ext] structure Record where
  seq : Nat
  globalIds : List Int
  vectors : Matrix Float32Bits
  payloads : List String

/-- The loop of `_parse_payloads`. -/
def parsePayloadTexts : Nat → Bytes → Except Error (Option (List String))
  | 0, rest => .ok (if rest = [] then some [] else none)
  | count + 1, rest =>
      if rest.length < 4 then .ok none
      else
        let size := LittleEndian.decode (rest.take 4)
        if (rest.drop 4).length < size then .ok none
        else do
          let text ← decodeUtf8 ((rest.drop 4).take size)
          match ← parsePayloadTexts count ((rest.drop 4).drop size) with
          | none => return none
          | some texts => return some (text :: texts)

/-- `_parse_payloads` on the bytes behind the vectors. -/
def parsePayloads (rest : Bytes) (count : Nat) : Except Error (Option (List String)) :=
  if rest = [] then .ok (some (List.replicate count "")) else parsePayloadTexts count rest

def recordStartSize : Nat := 16

/-- The body part of `_read_records`; `none` ends the log. -/
def decodeBody (body : Bytes) : Except Error (Option Record) :=
  if body.length < recordStartSize then .ok none
  else
    let seq := LittleEndian.decode (body.take 8)
    let count := LittleEndian.decode ((body.drop 8).take 4)
    let dim := LittleEndian.decode ((body.drop 12).take 4)
    let rest := body.drop recordStartSize
    if enough : rest.length < 8 * count + 4 * (count * dim) then .ok none
    else do
      let ids := LittleEndian.readMany 8 LittleEndian.decodeInt count rest
      let values := LittleEndian.readMany 4 (fun bytes => UInt32.ofNat (LittleEndian.decode bytes))
        (count * dim) (rest.drop (8 * count))
      let vectors : Matrix Float32Bits := {
        dim
        rows := LittleEndian.readMany dim id count values
        shape := LittleEndian.readMany_widths dim count values
          (by rw [LittleEndian.readMany_length]) }
      match ← parsePayloads (rest.drop (8 * count + 4 * (count * dim))) count with
      | none => return none
      | some payloads => return some ⟨seq, ids, vectors, payloads⟩

def logFormat : FramedLog.Format Record Error := ⟨crc32, decodeBody⟩

/-- `_read_records` on the bytes of the file. -/
def readRecords (data : Bytes) : Except Error (List Record × Nat) := FramedLog.read logFormat data

/-! ## The round trip -/

theorem recordBody_length (seq : Nat) (globalIds : List Int) (vectors : Matrix Float32Bits)
    (payloads : List String) :
    (recordBody seq globalIds vectors payloads).length =
      (recordBody 0 globalIds vectors payloads).length := by
  simp only [recordBody, List.length_append, LittleEndian.encode_length]

theorem payloadSection_cons (payload : String) (rest : List String) :
    payloadSection (payload :: rest) =
      LittleEndian.encode 4 (encodeUtf8 payload).length ++
        (encodeUtf8 payload ++ payloadSection rest) := by
  simp only [payloadSection, List.flatMap_cons, List.append_assoc]

theorem parsePayloadTexts_section (payloads : List String)
    (fits : (payloadSection payloads).length < 2 ^ 32) :
    parsePayloadTexts payloads.length (payloadSection payloads) = .ok (some payloads) := by
  induction payloads with
  | nil => rfl
  | cons payload rest inductionHypothesis =>
      have size : (payloadSection (payload :: rest)).length =
          4 + ((encodeUtf8 payload).length + (payloadSection rest).length) := by
        rw [payloadSection_cons, List.length_append, List.length_append,
          LittleEndian.encode_length]
      have shorter : (payloadSection rest).length < 2 ^ 32 := by omega
      have header : (payloadSection (payload :: rest)).take 4 =
          LittleEndian.encode 4 (encodeUtf8 payload).length := by
        rw [payloadSection_cons]
        exact List.take_left' (LittleEndian.encode_length 4 _)
      have behind : (payloadSection (payload :: rest)).drop 4 =
          encodeUtf8 payload ++ payloadSection rest := by
        rw [payloadSection_cons]
        exact List.drop_left' (LittleEndian.encode_length 4 _)
      have length : LittleEndian.decode (LittleEndian.encode 4 (encodeUtf8 payload).length) =
          (encodeUtf8 payload).length :=
        LittleEndian.decode_encode 4 _ (by norm_num; omega)
      have long : ¬ (payloadSection (payload :: rest)).length < 4 := by omega
      have whole : ¬ (encodeUtf8 payload ++ payloadSection rest).length <
          (encodeUtf8 payload).length := by
        rw [List.length_append]
        omega
      simp only [List.length_cons, parsePayloadTexts, if_neg long, header, behind, length,
        if_neg whole, List.take_left, List.drop_left, decodeUtf8_encodeUtf8,
        inductionHypothesis shorter]
      rfl

/-- The payload section is read back; none at all stands for empty texts. -/
theorem parsePayloads_section (payloads : List String)
    (fits : (if payloads.any (· != "") then payloadSection payloads else []).length < 2 ^ 32) :
    parsePayloads (if payloads.any (· != "") then payloadSection payloads else [])
      payloads.length = .ok (some payloads) := by
  by_cases some : payloads.any (· != "")
  · have nonempty : payloadSection payloads ≠ [] := by
      intro empty
      cases payloads with
      | nil => simp at some
      | cons payload rest =>
          have length := congrArg List.length empty
          rw [payloadSection_cons, List.length_append, LittleEndian.encode_length] at length
          simp at length
    rw [if_pos some] at fits
    rw [if_pos some, parsePayloads, if_neg nonempty]
    exact parsePayloadTexts_section payloads fits
  · rw [if_neg some, parsePayloads, if_pos rfl]
    have empty : payloads = List.replicate payloads.length "" := by
      refine List.eq_replicate_of_mem ?_
      intro payload member
      by_contra other
      exact some (List.any_eq_true.mpr ⟨payload, member, by simpa using other⟩)
    rw [← empty]

/-- One write as a shard applies it: a row and a payload text for each global
id, and a record that fits its fields. -/
@[ext] structure Write where
  globalIds : List Int
  vectors : Matrix Float32Bits
  payloads : List String
  counted : globalIds.length = vectors.rows.length
  texts : payloads.length = globalIds.length
  inside : globalIds.all fitsInt64 = true
  rows_small : vectors.rows.length < 2 ^ 32
  dim_small : vectors.dim < 2 ^ 32
  body_small : (recordBody 0 globalIds vectors payloads).length < 2 ^ 32

namespace Write

/-- The record body of the write under a seq. -/
def body (write : Write) (seq : Nat) : Bytes :=
  recordBody seq write.globalIds write.vectors write.payloads

/-- What the reader of the log makes of that body. -/
def record (write : Write) (seq : Nat) : Record :=
  ⟨seq, write.globalIds, write.vectors, write.payloads⟩

theorem body_fits (write : Write) (seq : Nat) : (write.body seq).length < 2 ^ 32 := by
  rw [body, recordBody_length]
  exact write.body_small

/-- The body in the groups the reader takes it apart in. -/
theorem body_groups (write : Write) (seq : Nat) :
    write.body seq =
      LittleEndian.encode 8 seq ++ (LittleEndian.encode 4 write.vectors.rows.length ++
        (LittleEndian.encode 4 write.vectors.dim ++
          (write.globalIds.flatMap (LittleEndian.encodeInt 8) ++
            (write.vectors.ravel.flatMap (fun value => LittleEndian.encode 4 value.toNat) ++
              if write.payloads.any (· != "") then payloadSection write.payloads else [])))) := by
  simp only [body, recordBody, List.append_assoc]

theorem ids_length (write : Write) :
    (write.globalIds.flatMap (LittleEndian.encodeInt 8)).length =
      8 * write.vectors.rows.length := by
  rw [LittleEndian.flatMap_length 8 _ _ (fun _ _ => LittleEndian.encodeInt_length 8 _),
    write.counted]

theorem values_length (write : Write) :
    (write.vectors.ravel.flatMap (fun value => LittleEndian.encode 4 value.toNat)).length =
      4 * (write.vectors.rows.length * write.vectors.dim) := by
  rw [LittleEndian.flatMap_length 4 _ _ (fun _ _ => LittleEndian.encode_length 4 _),
    Matrix.ravel_length, Nat.mul_comm write.vectors.dim]

theorem readMany_ids (write : Write) (rest : Bytes) :
    LittleEndian.readMany 8 LittleEndian.decodeInt write.vectors.rows.length
      (write.globalIds.flatMap (LittleEndian.encodeInt 8) ++ rest) = write.globalIds := by
  rw [← write.counted]
  apply LittleEndian.readMany_flatMap
  · intro id _
    exact LittleEndian.encodeInt_length 8 id
  · intro id member
    have bounds : -2 ^ 63 ≤ id ∧ id < 2 ^ 63 := by
      simpa only [fitsInt64, decide_eq_true_eq] using List.all_eq_true.mp write.inside id member
    apply LittleEndian.decodeInt_encodeInt
    · norm_num
      omega
    · norm_num
      omega

theorem readMany_values (write : Write) (rest : Bytes) :
    LittleEndian.readMany 4 (fun bytes => UInt32.ofNat (LittleEndian.decode bytes))
      (write.vectors.rows.length * write.vectors.dim)
      (write.vectors.ravel.flatMap (fun value => LittleEndian.encode 4 value.toNat) ++ rest) =
      write.vectors.ravel := by
  have count : write.vectors.rows.length * write.vectors.dim = write.vectors.ravel.length := by
    rw [Matrix.ravel_length, Nat.mul_comm]
  rw [count]
  apply LittleEndian.readMany_flatMap
  · intro value _
    exact LittleEndian.encode_length 4 _
  · intro value _
    have bound : value.toNat < 256 ^ 4 := by
      have := value.toNat_lt
      norm_num at this ⊢
      exact this
    rw [LittleEndian.decode_encode 4 _ bound]
    exact UInt32.ofNat_toNat

theorem readMany_rows (write : Write) :
    LittleEndian.readMany write.vectors.dim id write.vectors.rows.length write.vectors.ravel =
      write.vectors.rows := by
  have read := LittleEndian.readMany_flatMap write.vectors.dim id id write.vectors.rows []
    write.vectors.shape (fun _ _ => rfl)
  rw [List.append_nil, List.flatMap_id] at read
  exact read

theorem section_length (write : Write) :
    (if write.payloads.any (· != "") then payloadSection write.payloads else []).length <
      2 ^ 32 := by
  have whole := write.body_fits 0
  rw [body_groups] at whole
  simp only [List.length_append] at whole
  omega

/-- The reader returns the write that was logged. -/
theorem decodeBody_body (write : Write) (seq : Nat) (small : seq < 2 ^ 64) :
    decodeBody (write.body seq) = .ok (some (write.record seq)) := by
  have seqRead : LittleEndian.decode ((write.body seq).take 8) = seq := by
    rw [body_groups, List.take_left' (LittleEndian.encode_length 8 _)]
    exact LittleEndian.decode_encode 8 seq (by norm_num; omega)
  have countRead : LittleEndian.decode (((write.body seq).drop 8).take 4) =
      write.vectors.rows.length := by
    rw [body_groups, List.drop_left' (LittleEndian.encode_length 8 _),
      List.take_left' (LittleEndian.encode_length 4 _)]
    exact LittleEndian.decode_encode 4 _ (by have := write.rows_small; norm_num; omega)
  have dimRead : LittleEndian.decode (((write.body seq).drop 12).take 4) = write.vectors.dim := by
    have twice : (write.body seq).drop 12 = ((write.body seq).drop 8).drop 4 := by
      rw [List.drop_drop]
    rw [twice, body_groups,
      List.drop_left' (LittleEndian.encode_length 8 _),
      List.drop_left' (LittleEndian.encode_length 4 _),
      List.take_left' (LittleEndian.encode_length 4 _)]
    exact LittleEndian.decode_encode 4 _ (by have := write.dim_small; norm_num; omega)
  have rest : (write.body seq).drop recordStartSize =
      write.globalIds.flatMap (LittleEndian.encodeInt 8) ++
        (write.vectors.ravel.flatMap (fun value => LittleEndian.encode 4 value.toNat) ++
          if write.payloads.any (· != "") then payloadSection write.payloads else []) := by
    rw [body_groups, ← List.append_assoc, ← List.append_assoc]
    apply List.drop_left'
    simp only [List.length_append, LittleEndian.encode_length, recordStartSize]
  have valuesBehind : ((write.body seq).drop recordStartSize).drop
      (8 * write.vectors.rows.length) =
        write.vectors.ravel.flatMap (fun value => LittleEndian.encode 4 value.toNat) ++
          if write.payloads.any (· != "") then payloadSection write.payloads else [] := by
    rw [rest]
    exact List.drop_left' write.ids_length
  have sectionBehind : ((write.body seq).drop recordStartSize).drop
      (8 * write.vectors.rows.length + 4 * (write.vectors.rows.length * write.vectors.dim)) =
        if write.payloads.any (· != "") then payloadSection write.payloads else [] := by
    rw [← List.drop_drop, valuesBehind]
    exact List.drop_left' write.values_length
  have long : ¬ (write.body seq).length < recordStartSize := by
    rw [body_groups]
    simp only [List.length_append, LittleEndian.encode_length, recordStartSize]
    omega
  have enough : ¬ ((write.body seq).drop recordStartSize).length <
      8 * write.vectors.rows.length + 4 * (write.vectors.rows.length * write.vectors.dim) := by
    rw [rest, List.length_append, List.length_append, write.ids_length, write.values_length]
    omega
  have texts : parsePayloads
      (if write.payloads.any (· != "") then payloadSection write.payloads else [])
      write.vectors.rows.length = .ok (some write.payloads) := by
    rw [← write.counted, ← write.texts]
    exact parsePayloads_section write.payloads write.section_length
  simp only [decodeBody, if_neg long, seqRead, countRead, dimRead, dif_neg enough, sectionBehind,
    valuesBehind, texts, readMany_values, readMany_rows]
  simp only [rest, readMany_ids]
  rfl

/-- Writes under consecutive seqs, as they follow each other in a log. -/
def numbered (first : Nat) : List Write → List (Nat × Write)
  | [] => []
  | write :: rest => (first, write) :: numbered (first + 1) rest

end Write

/-! ## From the arguments of a write -/

/-- What holds of the arguments when their record is written. -/
theorem encodeRecord_ok {seq : Nat} {globalIds : List Int} {vectors : Matrix Float32Bits}
    {payloads : List String} {bytes : Bytes}
    (encoded : encodeRecord seq globalIds vectors payloads = .ok bytes) :
    globalIds.all fitsInt64 = true ∧
      (seq < 2 ^ 64 ∧ vectors.rows.length < 2 ^ 32 ∧ vectors.dim < 2 ^ 32 ∧
        (recordBody seq globalIds vectors payloads).length < 2 ^ 32) ∧
      bytes = FramedLog.frame crc32 (recordBody seq globalIds vectors payloads) := by
  unfold encodeRecord at encoded
  cases inside : globalIds.all fitsInt64 with
  | false => simp [inside] at encoded
  | true =>
      simp only [inside, Bool.not_true, Bool.false_eq_true, if_false] at encoded
      split at encoded
      · rename_i small
        exact ⟨rfl, small, (Except.ok.inj encoded).symm⟩
      · cases encoded

/-- Missing payloads and empty ones have the same record. -/
theorem recordBody_payloadsOrEmpty (seq : Nat) (globalIds : List Int)
    (vectors : Matrix Float32Bits) (payloads : List String) :
    recordBody seq globalIds vectors (Shard.payloadsOrEmpty globalIds.length payloads) =
      recordBody seq globalIds vectors payloads := by
  unfold Shard.payloadsOrEmpty
  split
  · rename_i none
    have quiet : (List.replicate globalIds.length "").any (· != "") = false := by
      simp only [List.any_eq_false]
      intro text member
      rw [List.eq_of_mem_replicate member]
      decide
    simp only [recordBody, none, quiet, List.any_nil, Bool.false_eq_true, if_false]
  · rfl

/-- When the arguments agree in count, logging them writes the frame of a
well-formed write. -/
theorem encodeRecord_write (seq : Nat) (globalIds : List Int) (vectors : Matrix Float32Bits)
    (payloads : List String) (bytes : Bytes) (counted : globalIds.length = vectors.rows.length)
    (texts : payloads = [] ∨ payloads.length = globalIds.length)
    (encoded : encodeRecord seq globalIds vectors payloads = .ok bytes) :
    ∃ write : Write, write.globalIds = globalIds ∧ write.vectors = vectors ∧
      Shard.payloadsOrEmpty globalIds.length payloads = write.payloads ∧
      bytes = FramedLog.frame crc32 (write.body seq) ∧ seq < 2 ^ 64 := by
  have sameLength : (Shard.payloadsOrEmpty globalIds.length payloads).length =
      globalIds.length := by
    unfold Shard.payloadsOrEmpty
    split
    · exact List.length_replicate
    · rename_i given
      exact texts.resolve_left given
  obtain ⟨inside, ⟨seqSmall, rowsSmall, dimSmall, bodySmall⟩, written⟩ :=
    encodeRecord_ok encoded
  rw [← recordBody_payloadsOrEmpty] at bodySmall written
  rw [recordBody_length] at bodySmall
  exact ⟨⟨globalIds, vectors, _, counted, sameLength, inside, rowsSmall, dimSmall, bodySmall⟩,
    rfl, rfl, rfl, written, seqSmall⟩

/-- A well-formed write is logged, whichever way its payloads are given. -/
theorem encodeRecord_given {write : Write} {payloads : List String}
    (given : Shard.payloadsOrEmpty write.globalIds.length payloads = write.payloads) {seq : Nat}
    (small : seq < 2 ^ 64) :
    encodeRecord seq write.globalIds write.vectors payloads =
      .ok (FramedLog.frame crc32 (write.body seq)) := by
  have body : recordBody seq write.globalIds write.vectors payloads = write.body seq := by
    rw [← recordBody_payloadsOrEmpty, given]
    rfl
  have fits : seq < 2 ^ 64 ∧ write.vectors.rows.length < 2 ^ 32 ∧ write.vectors.dim < 2 ^ 32 ∧
      (write.body seq).length < 2 ^ 32 :=
    ⟨small, write.rows_small, write.dim_small, write.body_fits seq⟩
  simp only [encodeRecord, body, write.inside, Bool.not_true, Bool.false_eq_true, if_false,
    if_pos fits]

end VectorSearch
