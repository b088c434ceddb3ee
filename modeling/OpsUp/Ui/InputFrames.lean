import OpsUp.Js.Text

/-!
# The frames of the terminal client

`inputFrames` cuts a text into stdin frames, `sendResize` builds one resize frame.
-/

namespace OpsUp.Ui

open OpsUp.Go OpsUp.Js

/-- `INPUT_CHUNK_BYTES` -/
def inputChunkBytes : Nat := 16 * 1024

/-- The loop over the offsets, on what is left from the offset on. -/
def chunks : Nat → Bytes → List Bytes
  | 0, _ => []
  | fuel + 1, bytes =>
      if bytes = [] then []
      else bytes.take inputChunkBytes :: chunks fuel (bytes.drop inputChunkBytes)

/-- A new array is zero, and zero is the type of a stdin frame. -/
def stdinFrame (payload : Bytes) : Bytes := 0x00 :: payload

def inputFrames (data : JsString) : List Bytes :=
  let bytes := textEncode data
  (chunks bytes.length bytes).map stdinFrame

/-- `JSON.stringify({ cols, rows })`, encoded. -/
def sizeText (cols rows : Nat) : Bytes :=
  bytesOf "\x7b\"cols\":" ++ decimalBytes cols ++ bytesOf ",\"rows\":" ++ decimalBytes rows ++
    bytesOf "\x7d"

/-- The frame of `sendResize`. -/
def resizeFrame (cols rows : Nat) : Bytes := 0x01 :: sizeText cols rows

/-- No byte is lost or moved. -/
theorem flatten_chunks {fuel : Nat} {bytes : Bytes} (enough : bytes.length ≤ fuel) :
    (chunks fuel bytes).flatten = bytes := by
  induction fuel generalizing bytes with
  | zero =>
      rw [List.length_eq_zero_iff.mp (Nat.le_zero.mp enough)]
      rfl
  | succ fuel ih =>
      unfold chunks
      split
      · next hempty => exact hempty.symm
      · next hcontent =>
          have hpositive := List.length_pos_iff.mpr hcontent
          have hrest : (bytes.drop inputChunkBytes).length ≤ fuel := by
            rw [List.length_drop, inputChunkBytes]
            omega
          rw [List.flatten_cons, ih hrest, List.take_append_drop]

theorem length_of_mem_chunks {fuel : Nat} {bytes payload : Bytes}
    (mem : payload ∈ chunks fuel bytes) : 0 < payload.length ∧ payload.length ≤ inputChunkBytes := by
  induction fuel generalizing bytes with
  | zero => cases mem
  | succ fuel ih =>
      unfold chunks at mem
      split at mem
      · cases mem
      · next hcontent =>
          rcases List.mem_cons.mp mem with rfl | hrest
          · have hpositive := List.length_pos_iff.mpr hcontent
            rw [List.length_take, inputChunkBytes]
            omega
          · exact ih hrest

/-- The payloads of the frames are the bytes of the text. -/
theorem inputFrames_payloads (data : JsString) :
    ∃ payloads : List Bytes, inputFrames data = payloads.map stdinFrame ∧ payloads.flatten = textEncode data ∧
      ∀ payload ∈ payloads, 0 < payload.length ∧ payload.length ≤ inputChunkBytes :=
  ⟨_, rfl, flatten_chunks (Nat.le_refl _), fun _ mem => length_of_mem_chunks mem⟩

end OpsUp.Ui
