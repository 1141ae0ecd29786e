import VectorSearch.Lib.LittleEndian

namespace VectorSearch

/-!
# Append-only logs of checksummed frames

A frame is a body behind an eight-byte header: the body's length and its
checksum, four bytes each.  A log file is a sequence of frames, and a reader
accepts frames from the front until one is cut short, fails its checksum or
has a body it cannot interpret.

The two facts a recovery argument needs are proved here for every body format:
frames that were written completely are read back, whatever follows them, and a
proper prefix of a frame is never mistaken for a frame.  The second fact uses
the length field alone, so it does not depend on what the checksum detects.
-/

namespace FramedLog

variable {R ε : Type}

/-- How bodies are protected and interpreted.  An uninterpretable body is
`ok none`; an exception of the body's own decoder is `error`. -/
structure Format (R ε : Type) where
  checksum : Bytes → UInt32
  decode : Bytes → Except ε (Option R)

def headerSize : Nat := 8

/-- One body behind its header. -/
def frame (checksum : Bytes → UInt32) (body : Bytes) : Bytes :=
  LittleEndian.encode 4 body.length ++ LittleEndian.encode 4 (checksum body).toNat ++ body

/-- Read frames from the front, with the number of bytes they occupy.  A frame
takes at least its header, so as much fuel as bytes is enough. -/
def scan (format : Format R ε) : Nat → Bytes → Except ε (List R × Nat)
  | 0, _ => .ok ([], 0)
  | fuel + 1, data =>
      if data.length < headerSize then .ok ([], 0)
      else
        let length := LittleEndian.decode (data.take 4)
        let sum := LittleEndian.decode ((data.drop 4).take 4)
        let body := (data.drop headerSize).take length
        if data.length < headerSize + length then .ok ([], 0)
        else if (format.checksum body).toNat ≠ sum then .ok ([], 0)
        else
          match format.decode body with
          | .error error => .error error
          | .ok none => .ok ([], 0)
          | .ok (some record) =>
              match scan format fuel (data.drop (headerSize + length)) with
              | .error error => .error error
              | .ok (records, size) => .ok (record :: records, headerSize + length + size)

def read (format : Format R ε) (data : Bytes) : Except ε (List R × Nat) :=
  scan format data.length data

theorem scan_short (format : Format R ε) (fuel : Nat) (data : Bytes)
    (short : data.length < headerSize) : scan format fuel data = .ok ([], 0) := by
  cases fuel with
  | zero => rfl
  | succ fuel => simp only [scan, if_pos short]

/-! ## Whole frames -/

@[simp] theorem frame_length (checksum : Bytes → UInt32) (body : Bytes) :
    (frame checksum body).length = headerSize + body.length := by
  simp only [frame, List.length_append, LittleEndian.encode_length, headerSize]

theorem frame_take_length (checksum : Bytes → UInt32) (body rest : Bytes) (fits : body.length < 2 ^ 32) :
    LittleEndian.decode ((frame checksum body ++ rest).take 4) = body.length := by
  have front : (frame checksum body ++ rest).take 4 = LittleEndian.encode 4 body.length := by
    simp only [frame, List.append_assoc]
    exact List.take_left' (LittleEndian.encode_length 4 _)
  rw [front, LittleEndian.decode_encode 4 _ (by norm_num; omega)]

theorem frame_take_checksum (checksum : Bytes → UInt32) (body rest : Bytes) :
    LittleEndian.decode (((frame checksum body ++ rest).drop 4).take 4) =
      (checksum body).toNat := by
  have middle : ((frame checksum body ++ rest).drop 4).take 4 =
      LittleEndian.encode 4 (checksum body).toNat := by
    simp only [frame, List.append_assoc]
    rw [List.drop_left' (LittleEndian.encode_length 4 _)]
    exact List.take_left' (LittleEndian.encode_length 4 _)
  have bound : (checksum body).toNat < 256 ^ 4 := by
    have := (checksum body).toNat_lt
    norm_num at this ⊢
    exact this
  rw [middle, LittleEndian.decode_encode 4 _ bound]

theorem frame_drop_header (checksum : Bytes → UInt32) (body rest : Bytes) :
    (frame checksum body ++ rest).drop headerSize = body ++ rest := by
  simp only [frame, List.append_assoc]
  rw [← List.append_assoc (LittleEndian.encode 4 body.length)]
  exact List.drop_left' (by simp [headerSize])

/-- A complete frame whose body decodes is read, and reading goes on right
behind it. -/
theorem scan_frame (format : Format R ε) (fuel : Nat) (body rest : Bytes) (record : R)
    (fits : body.length < 2 ^ 32) (decoded : format.decode body = .ok (some record)) :
    scan format (fuel + 1) (frame format.checksum body ++ rest) =
      match scan format fuel rest with
      | .error error => .error error
      | .ok (records, size) => .ok (record :: records, headerSize + body.length + size) := by
  have enough : ¬ (frame format.checksum body ++ rest).length < headerSize := by
    simp only [List.length_append, frame_length]
    omega
  have whole : ¬ (frame format.checksum body ++ rest).length < headerSize + body.length := by
    simp only [List.length_append, frame_length]
    omega
  have inside : (body ++ rest).take body.length = body := List.take_left
  have behind : (frame format.checksum body ++ rest).drop (headerSize + body.length) = rest := by
    rw [← List.drop_drop, frame_drop_header, List.drop_left]
  simp only [scan, if_neg enough, frame_take_length _ _ _ fits, frame_take_checksum,
    frame_drop_header, inside, if_neg whole, behind, ne_eq, not_true_eq_false, if_false, decoded]

/-! ## Torn frames -/

/-- A proper prefix of a frame is never read as a frame. -/
theorem scan_torn (format : Format R ε) (fuel : Nat) (body torn : Bytes) (fits : body.length < 2 ^ 32)
    (cut : torn <+: frame format.checksum body) (proper : torn.length < (frame format.checksum body).length) :
    scan format fuel torn = .ok ([], 0) := by
  cases fuel with
  | zero => rfl
  | succ fuel =>
      by_cases short : torn.length < headerSize
      · exact scan_short format (fuel + 1) torn short
      · obtain ⟨missing, whole⟩ := cut
        have header : torn.take 4 = (torn ++ missing).take 4 := by
          rw [List.take_append_of_le_length (by simp only [headerSize] at short; omega)]
        have length : LittleEndian.decode (torn.take 4) = body.length := by
          rw [header, whole, ← List.append_nil (frame format.checksum body),
            frame_take_length _ _ _ fits]
        have beyond : torn.length < headerSize + body.length := by
          simpa only [frame_length] using proper
        simp only [scan, if_neg short, length, if_pos beyond]

/-! ## Logs -/

/-- The file that results from appending the given bodies to an empty one. -/
def write (checksum : Bytes → UInt32) (bodies : List Bytes) : Bytes :=
  bodies.flatMap (frame checksum)

@[simp] theorem write_nil (checksum : Bytes → UInt32) : write checksum [] = [] := rfl

theorem write_append (checksum : Bytes → UInt32) (first second : List Bytes) :
    write checksum (first ++ second) = write checksum first ++ write checksum second :=
  List.flatMap_append

theorem write_singleton (checksum : Bytes → UInt32) (body : Bytes) :
    write checksum [body] = frame checksum body := by
  simp only [write, List.flatMap_cons, List.flatMap_nil, List.append_nil]

/-- The bodies carry the given records, in order, and each fits its header. -/
inductive Carries (format : Format R ε) : List Bytes → List R → Prop
  | nil : Carries format [] []
  | cons {body : Bytes} {record : R} {bodies : List Bytes} {records : List R}
      (fits : body.length < 2 ^ 32) (decoded : format.decode body = .ok (some record))
      (later : Carries format bodies records) :
      Carries format (body :: bodies) (record :: records)

/-- Completely written frames are read back in front of any tail on which
reading stops at once. -/
theorem scan_write (format : Format R ε) {bodies : List Bytes} {records : List R}
    (carries : Carries format bodies records) (tail : Bytes)
    (stops : ∀ fuel, scan format fuel tail = .ok ([], 0)) (fuel : Nat) (enough : bodies.length ≤ fuel) :
    scan format fuel (write format.checksum bodies ++ tail) =
      .ok (records, (write format.checksum bodies).length) := by
  induction carries generalizing fuel with
  | nil => simpa only [write_nil, List.nil_append, List.length_nil] using stops fuel
  | @cons body record bodies records fits decoded later inductionHypothesis =>
      cases fuel with
      | zero => simp only [List.length_cons] at enough; omega
      | succ fuel =>
          have split : write format.checksum (body :: bodies) ++ tail =
              frame format.checksum body ++ (write format.checksum bodies ++ tail) := by
            simp only [write, List.flatMap_cons, List.append_assoc]
          have size : (write format.checksum (body :: bodies)).length =
              headerSize + body.length + (write format.checksum bodies).length := by
            simp only [write, List.flatMap_cons, List.length_append, frame_length]
          rw [split, scan_frame format fuel body _ record fits decoded,
            inductionHypothesis fuel (by simp only [List.length_cons] at enough; omega), size]

theorem bodies_le_write (checksum : Bytes → UInt32) (bodies : List Bytes) :
    bodies.length ≤ (write checksum bodies).length := by
  induction bodies with
  | nil => exact Nat.zero_le _
  | cons body bodies inductionHypothesis =>
      simp only [write, List.flatMap_cons, List.length_append, frame_length, List.length_cons,
        headerSize] at inductionHypothesis ⊢
      omega

/-- Reading a log whose last frame is torn returns the complete records and
the length of the part they occupy. -/
theorem read_write_torn (format : Format R ε) {bodies : List Bytes} {records : List R}
    (carries : Carries format bodies records) (body torn : Bytes) (fits : body.length < 2 ^ 32)
    (cut : torn <+: frame format.checksum body) (proper : torn.length < (frame format.checksum body).length) :
    read format (write format.checksum bodies ++ torn) =
      .ok (records, (write format.checksum bodies).length) := by
  apply scan_write format carries torn
  · intro fuel
    exact scan_torn format fuel body torn fits cut proper
  · have := bodies_le_write format.checksum bodies
    rw [List.length_append]
    omega

/-- Reading a log of complete frames returns all of it. -/
theorem read_write (format : Format R ε) {bodies : List Bytes} {records : List R}
    (carries : Carries format bodies records) :
    read format (write format.checksum bodies) =
      .ok (records, (write format.checksum bodies).length) := by
  have whole := scan_write format carries []
    (fun fuel => scan_short format fuel [] (by decide)) (write format.checksum bodies).length
    (bodies_le_write format.checksum bodies)
  rw [List.append_nil] at whole
  exact whole

/-! ## Cutting a log -/

/-- How many of the frames end at or before the given position. -/
def complete (checksum : Bytes → UInt32) : List Bytes → Nat → Nat
  | [], _ => 0
  | body :: bodies, size =>
      if (frame checksum body).length ≤ size then
        complete checksum bodies (size - (frame checksum body).length) + 1
      else 0

theorem write_cons (checksum : Bytes → UInt32) (body : Bytes) (bodies : List Bytes) :
    write checksum (body :: bodies) = frame checksum body ++ write checksum bodies :=
  List.flatMap_cons

theorem complete_le (checksum : Bytes → UInt32) (bodies : List Bytes) (size : Nat) :
    complete checksum bodies size ≤ bodies.length := by
  induction bodies generalizing size with
  | nil => exact Nat.le_refl _
  | cons body bodies inductionHypothesis =>
      unfold complete
      split
      · exact Nat.succ_le_succ (inductionHypothesis _)
      · exact Nat.zero_le _

/-- The complete frames are those that end at or before the position. -/
theorem le_complete_iff (checksum : Bytes → UInt32) (bodies : List Bytes) (size count : Nat)
    (inside : count ≤ bodies.length) :
    count ≤ complete checksum bodies size ↔ (write checksum (bodies.take count)).length ≤ size := by
  induction bodies generalizing size count with
  | nil =>
      rw [Nat.le_zero.mp inside]
      simp only [Nat.zero_le, List.take_nil, write_nil, List.length_nil]
  | cons body bodies inductionHypothesis =>
      cases count with
      | zero => simp only [Nat.zero_le, List.take_zero, write_nil, List.length_nil]
      | succ count =>
          have later := inductionHypothesis (size - (frame checksum body).length) count
            (Nat.le_of_succ_le_succ inside)
          rw [List.take_succ_cons, write_cons, List.length_append, complete]
          split
          · rename_i fits
            rw [Nat.add_le_add_iff_right, later]
            omega
          · rename_i beyond
            constructor
            · intro impossible
              cases impossible
            · intro inside
              omega

/-- A log that is cut off anywhere holds its complete frames and the beginning
of the next one. -/
theorem take_write (checksum : Bytes → UInt32) (bodies : List Bytes) (size : Nat)
    (fits : ∀ body ∈ bodies, body.length < 2 ^ 32) :
    ∃ body torn : Bytes, body.length < 2 ^ 32 ∧ torn <+: frame checksum body ∧
      torn.length < (frame checksum body).length ∧
      (write checksum bodies).take size =
        write checksum (bodies.take (complete checksum bodies size)) ++ torn := by
  induction bodies generalizing size with
  | nil =>
      refine ⟨[], [], by decide, List.nil_prefix, ?_, ?_⟩
      · rw [frame_length]
        decide
      · simp only [write_nil, List.take_nil, List.append_nil]
  | cons body bodies inductionHypothesis =>
      have first := fits body List.mem_cons_self
      rw [write_cons, complete]
      split
      · rename_i whole
        rcases inductionHypothesis (size - (frame checksum body).length)
          (fun other member => fits other (List.mem_cons_of_mem _ member)) with
          ⟨next, torn, small, cut, proper, rest⟩
        refine ⟨next, torn, small, cut, proper, ?_⟩
        rw [List.take_append, List.take_of_length_le whole, rest, List.take_succ_cons, write_cons,
          List.append_assoc]
      · rename_i shorter
        have inside : size ≤ (frame checksum body).length := Nat.le_of_not_le shorter
        refine ⟨body, (frame checksum body).take size, first, List.take_prefix _ _, ?_, ?_⟩
        · rw [List.length_take]
          omega
        · rw [List.take_append_of_le_length inside, List.take_zero, write_nil, List.nil_append]

theorem Carries.take {format : Format R ε} {bodies : List Bytes} {records : List R}
    (carries : Carries format bodies records) (count : Nat) :
    Carries format (bodies.take count) (records.take count) := by
  induction carries generalizing count with
  | nil =>
      simp only [List.take_nil]
      exact .nil
  | cons fits decoded _ inductionHypothesis =>
      cases count with
      | zero => exact .nil
      | succ count => exact .cons fits decoded (inductionHypothesis count)

theorem Carries.fits {format : Format R ε} {bodies : List Bytes} {records : List R}
    (carries : Carries format bodies records) : ∀ body ∈ bodies, body.length < 2 ^ 32 := by
  induction carries with
  | nil =>
      intro body member
      cases member
  | cons fits _ _ inductionHypothesis =>
      intro body member
      rcases List.mem_cons.mp member with rfl | later
      · exact fits
      · exact inductionHypothesis body later

/-- Reading a log that is cut off anywhere returns the records of its complete
frames and the length of the part they occupy. -/
theorem read_take_write (format : Format R ε) {bodies : List Bytes} {records : List R}
    (carries : Carries format bodies records) (size : Nat) :
    read format ((write format.checksum bodies).take size) =
      .ok (records.take (complete format.checksum bodies size),
        (write format.checksum (bodies.take (complete format.checksum bodies size))).length) := by
  rcases take_write format.checksum bodies size carries.fits with ⟨body, torn, small, cut, proper, whole⟩
  rw [whole]
  exact read_write_torn format (carries.take _) body torn small cut proper

end FramedLog
end VectorSearch
