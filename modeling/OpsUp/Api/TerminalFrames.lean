import OpsUp.Api.TerminalInput
import OpsUp.Go.Json
import OpsUp.Ui.InputFrames

/-!
# Browser and server agree on input frames

The client builds a frame byte by byte, the server takes it apart again.  Decimal digits
followed by a byte that continues no number are read back as the number they spell, so
the size that the server decodes is the size that the client encoded.
-/

namespace OpsUp.Api

open OpsUp.Go OpsUp.Interaction OpsUp.Js OpsUp.Ui

/-! ## The decoder of a size -/

def setSizeField (size : Size) (name : Bytes) (value : Json) : Option Size :=
  if foldName name = bytesOf "COLS" then
    (decodeInt size.cols value).map fun cols => { size with cols := cols }
  else if foldName name = bytesOf "ROWS" then
    (decodeInt size.rows value).map fun rows => { size with rows := rows }
  else some size

/-- `json.Unmarshal` into a size that is zero at first. -/
def unmarshalSize (data : Bytes) : Option Size :=
  match parseJson data with
  | some .null => some ⟨0, 0⟩
  | some (.object members) =>
      members.foldlM (fun size member => setSizeField size member.1 member.2) ⟨0, 0⟩
  | _ => none

/-! ## Decimal digits -/

theorem digitByte_of_isDigit {c : Char} (digit : c.isDigit) :
    isDigitByte (UInt8.ofNat c.toNat) = true ∧ Char.ofNat (UInt8.ofNat c.toNat).toNat = c := by
  have hrange : 48 ≤ c.toNat ∧ c.toNat ≤ 57 := by
    simp only [Char.isDigit, Bool.and_eq_true, decide_eq_true_eq] at digit
    exact ⟨UInt32.le_iff_toNat_le.mp digit.1, UInt32.le_iff_toNat_le.mp digit.2⟩
  have hbyte : (UInt8.ofNat c.toNat).toNat = c.toNat := by
    rw [UInt8.toNat_ofNat']
    omega
  refine ⟨?_, ?_⟩
  · simp only [isDigitByte, Bool.and_eq_true, decide_eq_true_eq, UInt8.le_iff_toNat_le, hbyte]
    exact hrange
  · rw [hbyte, Char.ofNat_toNat]

theorem isDigitByte_of_mem {n : Nat} {b : UInt8} (mem : b ∈ decimalBytes n) :
    isDigitByte b = true := by
  obtain ⟨c, hc, rfl⟩ := List.mem_map.mp mem
  exact (digitByte_of_isDigit (Nat.isDigit_of_mem_toDigits (by omega) (by omega) hc)).1

theorem decimalBytes_of_lt {n : Nat} (small : n < 10) : decimalBytes n = [UInt8.ofNat (48 + n)] := by
  rw [decimalBytes, Nat.toDigits_of_lt_base small]
  have hdigits : ∀ n < 10, [n.digitChar].map (fun c => UInt8.ofNat c.toNat) =
      [UInt8.ofNat (48 + n)] := by decide
  exact hdigits n small

/-- No leading zero, but for zero itself. -/
theorem decimalBytes_head (n : Nat) :
    ∃ b rest, decimalBytes n = b :: rest ∧ (b = 0x30 → rest = []) ∧ (0 < n → b ≠ 0x30) := by
  induction n using Nat.strongRecOn with
  | _ n ih =>
      by_cases hsmall : n < 10
      · refine ⟨_, [], decimalBytes_of_lt hsmall, fun _ => rfl, ?_⟩
        have hdigits : ∀ n < 10, 0 < n → UInt8.ofNat (48 + n) ≠ 0x30 := by decide
        exact hdigits n hsmall
      · obtain ⟨b, rest, hdigits, -, hhead⟩ := ih (n / 10) (by omega)
        have hnonzero := hhead (by omega)
        refine ⟨b, rest ++ [UInt8.ofNat (n % 10).digitChar.toNat], ?_, fun hzero => ?_, fun _ => hnonzero⟩
        · rw [decimalBytes, Nat.toDigits_of_base_le (by omega) (by omega), List.map_append]
          exact congrArg (· ++ _) hdigits
        · exact absurd hzero hnonzero

/-- The digits of a number up to a byte that is none. -/
theorem takeDigits_decimalBytes (n : Nat) {c : UInt8} (stop : isDigitByte c = false)
    (tail : Bytes) : takeDigits (decimalBytes n ++ c :: tail) = (decimalBytes n, c :: tail) := by
  have hall : ∀ b ∈ decimalBytes n, isDigitByte b = true := fun b hb => isDigitByte_of_mem hb
  rw [takeDigits, List.takeWhile_append_of_pos hall, List.dropWhile_append_of_pos hall]
  simp [stop]

theorem parseNumber_decimalBytes (n : Nat) {c : UInt8} (stop : isDigitByte c = false)
    (noFraction : c ≠ 0x2e) (noExponent : (c = 0x65 || c = 0x45) = false) (tail : Bytes) :
    parseNumber (decimalBytes n ++ c :: tail) = some (decimalBytes n, c :: tail) := by
  obtain ⟨b, rest, hdigits, hzero, -⟩ := decimalBytes_head n
  have hdigit : isDigitByte b = true := isDigitByte_of_mem (hdigits ▸ List.mem_cons_self)
  have hminus : b ≠ 0x2d := by
    rintro rfl
    exact absurd hdigit (by decide)
  have hinteger : integerPart (decimalBytes n ++ c :: tail) = some (decimalBytes n, c :: tail) := by
    have htake := takeDigits_decimalBytes n stop tail
    rw [hdigits] at htake ⊢
    by_cases hb : b = 0x30
    · rw [hzero hb, List.cons_append, integerPart, if_pos hb]
      rfl
    · rw [List.cons_append, integerPart, if_neg hb, if_pos hdigit]
      exact congrArg some htake
  have hunsigned : unsignedNumber (decimalBytes n ++ c :: tail) =
      some (decimalBytes n, c :: tail) := by
    simp [unsignedNumber, hinteger, fractionPart, noFraction, exponentPart, noExponent]
  rw [← hunsigned, hdigits, List.cons_append, parseNumber, if_neg hminus]

theorem parseValue_decimalBytes (n : Nat) {c : UInt8} (stop : isDigitByte c = false)
    (noFraction : c ≠ 0x2e) (noExponent : (c = 0x65 || c = 0x45) = false) (tail : Bytes)
    (fuel depth : Nat) :
    parseValue (fuel + 1) depth (decimalBytes n ++ c :: tail) =
      some (.number (decimalBytes n), c :: tail) := by
  obtain ⟨b, rest, hdigits, -, -⟩ := decimalBytes_head n
  have hdigit : isDigitByte b = true := isDigitByte_of_mem (hdigits ▸ List.mem_cons_self)
  have hother : ∀ other : UInt8, isDigitByte other = false → b ≠ other := by
    rintro other hnone rfl
    rw [hnone] at hdigit
    cases hdigit
  have hspace : isJsonSpace b = false := by
    simp [isJsonSpace, hother 0x20 rfl, hother 0x09 rfl, hother 0x0a rfl, hother 0x0d rfl]
  have hnumber := parseNumber_decimalBytes n stop noFraction noExponent tail
  rw [hdigits, List.cons_append] at hnumber ⊢
  rw [parseValue, skipSpace, List.dropWhile_cons_of_neg (ne_true_of_eq_false hspace)]
  dsimp only
  rw [if_neg (hother 0x22 rfl), if_neg (hother 0x7b rfl), if_neg (hother 0x5b rfl),
    if_neg (hother 0x6e rfl), if_neg (hother 0x74 rfl), if_neg (hother 0x66 rfl), hnumber]

/-- What the digits spell. -/
theorem decimalValue_of_isDigit {digits : List Char} (all : ∀ c ∈ digits, c.isDigit = true)
    (accumulated : Nat) :
    decimalValue accumulated digits = some (Nat.ofDigitChars 10 digits accumulated) := by
  induction digits generalizing accumulated with
  | nil => rfl
  | cons c rest ih =>
      have hdigit := all c List.mem_cons_self
      have hrange : '0'.toNat ≤ c.toNat ∧ c.toNat ≤ '9'.toNat := by
        simp only [Char.isDigit, Bool.and_eq_true, decide_eq_true_eq] at hdigit
        exact ⟨UInt32.le_iff_toNat_le.mp hdigit.1, UInt32.le_iff_toNat_le.mp hdigit.2⟩
      rw [decimalValue, decimalDigit, if_pos hrange]
      dsimp only
      rw [ih fun other hother => all other (List.mem_cons_of_mem _ hother)]
      rfl

theorem decodeInt_decimalBytes {n : Nat} (fits : n < int64Cutoff) (current : Int) :
    decodeInt current (.number (decimalBytes n)) = some n := by
  have hdigit : ∀ c ∈ Nat.toDigits 10 n, c.isDigit = true := fun c hc =>
    Nat.isDigit_of_mem_toDigits (by omega) (by omega) hc
  have hchars : (decimalBytes n).map (fun b => Char.ofNat b.toNat) = Nat.toDigits 10 n := by
    rw [decimalBytes, List.map_map]
    conv_rhs => rw [← List.map_id (Nat.toDigits 10 n)]
    exact List.map_congr_left fun c hc => (digitByte_of_isDigit (hdigit c hc)).2
  have hvalue : parseDigits (Nat.toDigits 10 n) = some n := by
    have hspelled := decimalValue_of_isDigit hdigit 0
    rw [Nat.ofDigitChars_ten_toDigits] at hspelled
    cases hdigits : Nat.toDigits 10 n with
    | nil => exact absurd hdigits Nat.toDigits_ne_nil
    | cons c rest =>
        rw [hdigits] at hspelled
        exact hspelled
  have hsign : ∀ c : Char, c.isDigit = false → ∀ rest, Nat.toDigits 10 n ≠ c :: rest := by
    rintro c hnone rest hhead
    have hfirst := hdigit c (hhead ▸ List.mem_cons_self)
    rw [hnone] at hfirst
    cases hfirst
  rw [decodeInt, hchars, parseInt, String.toList_ofList]
  split
  · next rest hhead => exact absurd hhead (hsign '-' rfl rest)
  · next rest hhead => exact absurd hhead (hsign '+' rfl rest)
  · rw [hvalue]
    dsimp only
    rw [if_pos fits]
    rfl

/-! ## The text of a size -/

theorem parseName_cols (tail : Bytes) :
    parseName (skipSpace (bytesOf "\"cols\":" ++ tail)) = some (bytesOf "cols", tail) := by
  have hquoted : bytesOf "\"cols\":" = 0x22 :: (bytesOf "cols" ++ [0x22, 0x3a]) := by decide
  have hplain : ∀ b ∈ bytesOf "cols", PlainByte b := by
    have hcols : bytesOf "cols" = [0x63, 0x6f, 0x6c, 0x73] := by decide
    simp [hcols, PlainByte]
  rw [hquoted, List.cons_append, List.append_assoc]
  exact parseName_plain hplain tail

theorem parseName_rows (tail : Bytes) :
    parseName (skipSpace (bytesOf "\"rows\":" ++ tail)) = some (bytesOf "rows", tail) := by
  have hquoted : bytesOf "\"rows\":" = 0x22 :: (bytesOf "rows" ++ [0x22, 0x3a]) := by decide
  have hplain : ∀ b ∈ bytesOf "rows", PlainByte b := by
    have hrows : bytesOf "rows" = [0x72, 0x6f, 0x77, 0x73] := by decide
    simp [hrows, PlainByte]
  rw [hquoted, List.cons_append, List.append_assoc]
  exact parseName_plain hplain tail

theorem parseMembers_cols (fuel depth : Nat) (n : Nat) (tail : Bytes) :
    parseMembers (fuel + 2) depth (bytesOf "\"cols\":" ++ (decimalBytes n ++ 0x2c :: tail)) =
      match parseMembers (fuel + 1) depth tail with
      | none => none
      | some (members, rest) => some ((bytesOf "cols", .number (decimalBytes n)) :: members, rest) := by
  rw [parseMembers, parseName_cols]
  dsimp only
  rw [parseValue_decimalBytes n rfl (by decide) rfl]
  rfl

theorem parseMembers_rows (fuel depth : Nat) (n : Nat) (tail : Bytes) :
    parseMembers (fuel + 2) depth (bytesOf "\"rows\":" ++ (decimalBytes n ++ 0x7d :: tail)) =
      some ([(bytesOf "rows", .number (decimalBytes n))], tail) := by
  rw [parseMembers, parseName_rows]
  dsimp only
  rw [parseValue_decimalBytes n rfl (by decide) rfl]
  rfl

theorem sizeText_eq (cols rows : Nat) :
    sizeText cols rows = 0x7b :: (bytesOf "\"cols\":" ++ (decimalBytes cols ++ 0x2c ::
      (bytesOf "\"rows\":" ++ (decimalBytes rows ++ [0x7d])))) := by
  have hopen : bytesOf "\x7b\"cols\":" = 0x7b :: bytesOf "\"cols\":" := by decide
  have hcomma : bytesOf ",\"rows\":" = 0x2c :: bytesOf "\"rows\":" := by decide
  have hclose : bytesOf "\x7d" = [0x7d] := by decide
  rw [sizeText, hopen, hcomma, hclose]
  simp only [List.append_assoc, List.cons_append]

theorem parseJson_sizeText (cols rows : Nat) :
    parseJson (sizeText cols rows) = some (.object [(bytesOf "cols", .number (decimalBytes cols)),
      (bytesOf "rows", .number (decimalBytes rows))]) := by
  have hlength : 1 ≤ (sizeText cols rows).length := by
    rw [sizeText_eq, List.length_cons]
    exact Nat.succ_le_succ (Nat.zero_le _)
  obtain ⟨fuel, hfuel⟩ : ∃ fuel, 2 * (sizeText cols rows).length + 2 = fuel + 4 :=
    ⟨2 * (sizeText cols rows).length - 2, by omega⟩
  have hmembers : parseMembers (fuel + 3) 9999 (bytesOf "\"cols\":" ++ (decimalBytes cols ++ 0x2c ::
      (bytesOf "\"rows\":" ++ (decimalBytes rows ++ [0x7d])))) =
        some ([(bytesOf "cols", .number (decimalBytes cols)),
          (bytesOf "rows", .number (decimalBytes rows))], []) := by
    refine (parseMembers_cols (fuel + 1) 9999 cols _).trans ?_
    rw [parseMembers_rows fuel 9999 rows []]
  have hvalue : parseValue (fuel + 4) maxNestingDepth (sizeText cols rows) =
      some (.object [(bytesOf "cols", .number (decimalBytes cols)),
        (bytesOf "rows", .number (decimalBytes rows))], []) := by
    have hquoted : bytesOf "\"cols\":" = 0x22 :: bytesOf "cols\":" := by decide
    rw [hquoted, List.cons_append] at hmembers
    rw [sizeText_eq, hquoted, List.cons_append, maxNestingDepth, parseValue_object, hmembers]
  rw [parseJson, hfuel, hvalue]
  exact if_pos rfl

/-- The server decodes the size that the client encoded. -/
theorem unmarshalSize_sizeText {cols rows : Nat} (colsFit : cols < int64Cutoff)
    (rowsFit : rows < int64Cutoff) : unmarshalSize (sizeText cols rows) = some ⟨cols, rows⟩ := by
  have hcols : ∀ size : Size, ∀ value, setSizeField size (bytesOf "cols") value =
      (decodeInt size.cols value).map fun cols => { size with cols := cols } := fun _ _ => rfl
  have hrows : ∀ size : Size, ∀ value, setSizeField size (bytesOf "rows") value =
      (decodeInt size.rows value).map fun rows => { size with rows := rows } := fun _ _ => rfl
  rw [unmarshalSize, parseJson_sizeText]
  simp only [List.foldlM_cons, List.foldlM_nil, hcols, hrows, decodeInt_decimalBytes colsFit,
    decodeInt_decimalBytes rowsFit, Option.bind_eq_bind, Option.bind_some]
  rfl

/-! ## Agreement -/

theorem length_decimalBytes_le {n : Nat} (small : n ≤ 1000) : (decimalBytes n).length ≤ 4 := by
  rw [decimalBytes, List.length_map, Nat.length_toDigits_le_iff (by omega) (by omega)]
  omega

/-- The server accepts the frame and then asks the shell for exactly this. -/
structure FrameHandled (frame : Bytes) (outcome : Dispatch) : Prop where
  content : frame ≠ []
  fits : frame.length ≤ maxTerminalMessage
  outcome : dispatch unmarshalSize frame = outcome

/-- Such a frame goes from the reader to the shell without ending the session. -/
theorem FrameHandled.relayed {frame : Bytes} {outcome : Dispatch} (handled : FrameHandled frame outcome)
    {s : Input} (reading : s.reader = .reading) (consuming : s.consumer = .selecting)
    (empty : s.queue = []) :
    play (Input.step unmarshalSize) s [.receive .binary frame, .enqueue, .take, .dispatch] =
      some ({ s with reader := .reading, received := s.received ++ [frame], queue := [],
                     consumer := .dispatching frame }.act frame outcome) := by
  have hreceive : s.step unmarshalSize (.receive .binary frame) =
      some { s with reader := .offering frame, received := s.received ++ [frame] } := by
    have hready : ¬ (s.reader ≠ .reading ∨ frame.length > maxTerminalMessage) := by
      rw [not_or, not_not]
      exact ⟨reading, Nat.not_lt.mpr handled.fits⟩
    have hcontent : ¬ (MessageKind.binary ≠ .binary ∨ frame = []) := by
      rw [not_or, not_not]
      exact ⟨rfl, handled.content⟩
    rw [Input.step, if_neg hready, if_neg hcontent]
  rw [play_cons_iff]
  refine ⟨_, hreceive, ?_⟩
  simp [play, Input.step, empty, consuming, terminalInputQueue, handled.outcome]

/--
Every frame that the client builds is handled, within the dimensions that the server
accepts: a stdin frame is written with exactly its payload, a resize frame sets exactly
its size.
-/
theorem clientFrames_handled :
    (∀ (data : JsString) (frame : Bytes), frame ∈ inputFrames data →
      ∃ payload, frame = stdinFrame payload ∧ FrameHandled frame (.write payload)) ∧
    ∀ cols rows : Nat, 2 ≤ cols → 1 ≤ rows → cols ≤ 1000 → rows ≤ 1000 →
      FrameHandled (resizeFrame cols rows) (.windowChange rows cols) := by
  refine ⟨?_, ?_⟩
  · intro data frame hframe
    obtain ⟨payloads, hframes, -, hlengths⟩ := inputFrames_payloads data
    rw [hframes] at hframe
    obtain ⟨payload, hpayload, rfl⟩ := List.mem_map.mp hframe
    have hlength := (hlengths payload hpayload).2
    refine ⟨payload, rfl, List.cons_ne_nil _ _, ?_, rfl⟩
    rw [inputChunkBytes] at hlength
    rw [stdinFrame, List.length_cons, maxTerminalMessage]
    omega
  · intro cols rows hcols hrows hcolsMax hrowsMax
    refine ⟨List.cons_ne_nil _ _, ?_, ?_⟩
    · have hcolsLength := length_decimalBytes_le hcolsMax
      have hrowsLength := length_decimalBytes_le hrowsMax
      have hcolsName : (bytesOf "\"cols\":").length = 7 := by decide
      have hrowsName : (bytesOf "\"rows\":").length = 7 := by decide
      rw [resizeFrame, sizeText_eq, maxTerminalMessage]
      simp only [List.length_cons, List.length_append, List.length_nil, hcolsName, hrowsName]
      omega
    · have hdecoded : unmarshalSize (sizeText cols rows) = some ⟨cols, rows⟩ := by
        apply unmarshalSize_sizeText
        · rw [int64Cutoff]
          omega
        · rw [int64Cutoff]
          omega
      have hrange : ¬ ((cols : Int) < 1 ∨ (rows : Int) < 1 ∨ (cols : Int) > 1000 ∨
          (rows : Int) > 1000) := by omega
      change dispatch unmarshalSize (msgTypeResize :: sizeText cols rows) = _
      rw [dispatch_resize, hdecoded]
      dsimp only
      rw [resize, if_neg hrange]

/-- A terminal of 1001 columns is refused. -/
theorem clientFrames_refused :
    ¬ ∀ cols rows : Nat, 2 ≤ cols → 1 ≤ rows →
      FrameHandled (resizeFrame cols rows) (.windowChange rows cols) := by
  intro claim
  have houtcome := (claim 1001 24 (by omega) (by omega)).outcome
  change dispatch unmarshalSize (msgTypeResize :: sizeText 1001 24) = _ at houtcome
  have hdecoded : unmarshalSize (sizeText 1001 24) = some ⟨(1001 : Nat), (24 : Nat)⟩ := by
    apply unmarshalSize_sizeText <;> decide
  rw [dispatch_resize, hdecoded] at houtcome
  cases houtcome

end OpsUp.Api
