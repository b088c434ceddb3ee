import OpsUp.Js.Pattern
import OpsUp.Api.HostKeyPins

/-!
# The host key field of the server form

The form checks a host key against a pattern before it is sent.  The server accepts
the same texts, and also those that become one of them without their line breaks.
-/

namespace OpsUp.Ui

open OpsUp.Api OpsUp.Go OpsUp.Js

/-- `[A-Za-z0-9+/]` -/
def base64Class (unit : UInt16) : Bool :=
  let n := unit.toNat
  ('A'.toNat ≤ n && n ≤ 'Z'.toNat) || ('a'.toNat ≤ n && n ≤ 'z'.toNat) ||
    ('0'.toNat ≤ n && n ≤ '9'.toNat) || n == '+'.toNat || n == '/'.toNat

/-- `/^SHA256:[A-Za-z0-9+/]{43}$/` -/
def hostKeyPattern : Pattern UInt16 := .literal (jsString "SHA256:") ++ .repeated base64Class 43

/-- The text without its carriage returns and line feeds. -/
def withoutLineBreaks (text : String) : String :=
  String.ofList (text.toList.filter fun c => !isLineBreak c)

/-- A host key that has line breaks and would match the pattern without them. -/
def Broken (hostKey : String) : Prop :=
  ∃ text, hostKey = hostKeyPrefix ++ text ∧ (∃ c ∈ text.toList, isLineBreak c = true) ∧
    hostKeyPattern.test (jsString (hostKeyPrefix ++ withoutLineBreaks text)) = true

theorem onChar_base64Class (c : Char) :
    Pattern.onChar base64Class c = true ↔ ∃ value < 64, c = base64Char value := by
  constructor
  · intro hclass
    rw [Pattern.onChar, Bool.and_eq_true, decide_eq_true_eq] at hclass
    obtain ⟨hunit, hclass⟩ := hclass
    rw [base64Class, UInt16.toNat_ofNat_of_lt' hunit] at hclass
    simp only [Bool.or_eq_true, Bool.and_eq_true, decide_eq_true_eq, beq_iff_eq] at hclass
    have hvalue : ∃ value, base64Value c = some value := by
      unfold base64Value
      dsimp only
      split
      · exact ⟨_, rfl⟩
      · next hupper =>
          split
          · exact ⟨_, rfl⟩
          · next hlower =>
              split
              · exact ⟨_, rfl⟩
              · next hdigit =>
                  rcases hclass with (((h | h) | h) | h) | h
                  · exact absurd h hupper
                  · exact absurd h hlower
                  · exact absurd h hdigit
                  · rw [if_pos (Char.toNat_inj.mp h)]
                    exact ⟨_, rfl⟩
                  · rw [Char.toNat_inj.mp h]
                    exact ⟨63, rfl⟩
    obtain ⟨value, hvalue⟩ := hvalue
    obtain ⟨hless, hchar⟩ := base64Char_of_base64Value hvalue
    exact ⟨value, hless, hchar.symm⟩
  · rintro ⟨value, hless, rfl⟩
    have hall : ∀ n < 64, Pattern.onChar base64Class (base64Char n) = true := by decide
    exact hall value hless

/-- The pattern matches the prefix with 43 characters of the alphabet. -/
theorem hostKeyPattern_iff {hostKey : String} : hostKeyPattern.test (jsString hostKey) = true ↔
    ∃ values : List Nat, values.length = 43 ∧ (∀ value ∈ values, value < 64) ∧
      hostKey = hostKeyPrefix ++ String.ofList (values.map base64Char) := by
  have hplain : hostKeyPattern.WithoutSurrogates := by
    intro accepts haccepts unit hsurrogate
    rcases List.mem_append.mp haccepts with hliteral | hclass
    · obtain ⟨expected, hexpected, rfl⟩ := List.mem_map.mp hliteral
      have hall : (jsString "SHA256:").all (fun other => decide (other.toNat < 0xd800)) = true := by
        decide
      have hless := of_decide_eq_true (List.all_eq_true.mp hall expected hexpected)
      apply decide_eq_false
      rintro rfl
      omega
    · rw [List.eq_of_mem_replicate hclass, base64Class]
      simp only [Char.reduceToNat, Bool.or_eq_false_iff, Bool.and_eq_false_iff,
        decide_eq_false_iff_not, beq_eq_false_iff_ne]
      omega
  have hall : "SHA256:".toList.all (fun c => decide (c.toNat < 0x10000)) = true := by decide
  have hunits : ∀ c ∈ "SHA256:".toList, c.toNat < 0x10000 := fun c hc =>
    of_decide_eq_true (List.all_eq_true.mp hall c hc)
  rw [jsString, Pattern.test_jsString hplain, hostKeyPattern, List.map_append, Pattern.test_append]
  have hrepeated : (Pattern.repeated base64Class 43).map Pattern.onChar =
      Pattern.repeated (Pattern.onChar base64Class) 43 := List.map_replicate
  constructor
  · rintro ⟨start, rest, htext, hstart, hrest⟩
    obtain rfl := (Pattern.test_onChar_literal hunits).mp hstart
    rw [hrepeated] at hrest
    obtain ⟨hlength, hclass⟩ := Pattern.test_repeated.mp hrest
    have hvalues : ∃ values : List Nat, (∀ value ∈ values, value < 64) ∧
        rest = values.map base64Char := by
      clear htext hrest hlength
      induction rest with
      | nil => exact ⟨[], nofun, rfl⟩
      | cons c others ih =>
          obtain ⟨value, hless, rfl⟩ := (onChar_base64Class c).mp (hclass c List.mem_cons_self)
          obtain ⟨values, hsmall, rfl⟩ := ih fun other hother =>
            hclass other (List.mem_cons_of_mem _ hother)
          refine ⟨value :: values, ?_, rfl⟩
          intro other hother
          rcases List.mem_cons.mp hother with rfl | hother
          · exact hless
          · exact hsmall other hother
    obtain ⟨values, hsmall, rfl⟩ := hvalues
    refine ⟨values, by simpa using hlength, hsmall, ?_⟩
    apply String.toList_inj.mp
    have hback : (String.ofList (values.map base64Char)).toList = values.map base64Char :=
      String.toList_ofList
    rw [htext, String.toList_append, hback]
    rfl
  · rintro ⟨values, hlength, hsmall, rfl⟩
    refine ⟨"SHA256:".toList, values.map base64Char, ?_, ?_, ?_⟩
    · rw [String.toList_append, String.toList_ofList]
      rfl
    · exact (Pattern.test_onChar_literal hunits).mpr rfl
    · rw [hrepeated]
      apply Pattern.test_repeated.mpr
      refine ⟨by simpa using hlength, ?_⟩
      intro c hc
      obtain ⟨value, hvalue, rfl⟩ := List.mem_map.mp hc
      exact (onChar_base64Class _).mpr ⟨value, hsmall value hvalue, rfl⟩

/-- The server accepts what matches the pattern without line breaks. -/
theorem isHostFingerprint_iff_pattern {hostKey : String} : isHostFingerprint hostKey = true ↔
    ∃ text, hostKey = hostKeyPrefix ++ text ∧
      hostKeyPattern.test (jsString (hostKeyPrefix ++ withoutLineBreaks text)) = true := by
  rw [isHostFingerprint_iff]
  constructor
  · rintro ⟨text, digest, rfl, hdecoded, hlength⟩
    refine ⟨text, rfl, hostKeyPattern_iff.mpr ?_⟩
    unfold rawStdDecodeString at hdecoded
    cases hvalues : base64Values text.toList with
    | none => simp [hvalues] at hdecoded
    | some values =>
        simp only [hvalues] at hdecoded
        have hcount := length_of_decodeQuanta hdecoded
        obtain ⟨hsmall, hfilter⟩ := base64Values_eq_some_iff.mp hvalues
        exact ⟨values, by omega, hsmall, by rw [withoutLineBreaks, hfilter]⟩
  · rintro ⟨text, rfl, hpattern⟩
    obtain ⟨values, hcount, hsmall, htext⟩ := hostKeyPattern_iff.mp hpattern
    have hfilter : text.toList.filter (fun c => !isLineBreak c) = values.map base64Char := by
      have hsame := congrArg (fun whole => (trimPrefix whole hostKeyPrefix).toList) htext
      simpa only [trimPrefix_append, withoutLineBreaks, String.toList_ofList] using hsame
    have hvalues : base64Values text.toList = some values :=
      base64Values_eq_some_iff.mpr ⟨hsmall, hfilter⟩
    have hcomplete : values.length % 4 ≠ 1 := by omega
    obtain ⟨digest, hdigest⟩ := decodeQuanta_isSome hcomplete
    refine ⟨text, digest, rfl, by simp only [rawStdDecodeString, hvalues, hdigest], ?_⟩
    have hlength := length_of_decodeQuanta hdigest
    omega

theorem withoutLineBreaks_eq {text : String}
    (unbroken : ∀ c ∈ text.toList, isLineBreak c = false) : withoutLineBreaks text = text := by
  have hfilter : text.toList.filter (fun c => !isLineBreak c) = text.toList := by
    apply List.filter_eq_self.mpr
    intro c hc
    rw [unbroken c hc]
    rfl
  rw [withoutLineBreaks, hfilter, String.ofList_toList]

/-- A text that matches the pattern has no line breaks. -/
theorem unbroken_of_hostKeyPattern {text : String}
    (matched : hostKeyPattern.test (jsString (hostKeyPrefix ++ text)) = true) :
    ∀ c ∈ text.toList, isLineBreak c = false := by
  obtain ⟨values, -, hsmall, hsame⟩ := hostKeyPattern_iff.mp matched
  have htext := congrArg (fun whole => (trimPrefix whole hostKeyPrefix).toList) hsame
  simp only [trimPrefix_append, String.toList_ofList] at htext
  intro c hc
  rw [htext] at hc
  obtain ⟨value, hvalue, rfl⟩ := List.mem_map.mp hc
  exact not_isLineBreak_base64Char (hsmall value hvalue)

/-- The pattern and the check of the server differ on broken host keys only. -/
theorem hostKeyPattern_eq_iff (hostKey : String) :
    (hostKeyPattern.test (jsString hostKey) = true ↔ isHostFingerprint hostKey = true) ↔
      ¬ Broken hostKey := by
  rw [isHostFingerprint_iff_pattern]
  constructor
  · rintro hsame ⟨text, rfl, ⟨c, hc, hbreak⟩, hpattern⟩
    have hmatched := hsame.mpr ⟨text, rfl, hpattern⟩
    rw [unbroken_of_hostKeyPattern hmatched c hc] at hbreak
    cases hbreak
  · intro hunbroken
    constructor
    · intro hmatched
      obtain ⟨values, -, -, hsame⟩ := hostKeyPattern_iff.mp hmatched
      refine ⟨_, hsame, ?_⟩
      rw [hsame] at hmatched
      rwa [withoutLineBreaks_eq (unbroken_of_hostKeyPattern hmatched)]
    · rintro ⟨text, rfl, hpattern⟩
      have hclean : ∀ c ∈ text.toList, isLineBreak c = false := by
        intro c hc
        cases hbreak : isLineBreak c with
        | false => rfl
        | true => exact absurd ⟨text, rfl, ⟨c, hc, hbreak⟩, hpattern⟩ hunbroken
      rwa [withoutLineBreaks_eq hclean] at hpattern

/--
For every host key that is not empty and has no white space around it, the form and the
server agree about a request that is otherwise valid for SSH exactly when the host key is
not a fingerprint with line breaks inside.
-/
theorem host_key_checks_agree_iff {r v : ServerCreateReq}
    (valid : validate { r with hostKey := "" } = .ok v) (ssh : v.protocol = "ssh")
    {hostKey : String} (nonempty : hostKey ≠ "") (trimmed : trimSpace hostKey = hostKey) :
    (hostKeyPattern.test (jsString hostKey) = true ↔
        ∃ accepted, validate { r with hostKey := hostKey } = .ok accepted) ↔
      ¬ Broken hostKey := by
  have haccepts : (∃ accepted, validate { r with hostKey := hostKey } = .ok accepted) ↔
      isHostFingerprint hostKey = true := by
    constructor
    · rintro ⟨accepted, haccepted⟩
      have hprotocol := (validate_ssh_iff.mp ⟨valid, ssh⟩).protocol
      have hssh := protocol_of_validate (r := { r with hostKey := hostKey }) hprotocol haccepted
      have hchecked := (validate_ssh_iff.mp ⟨haccepted, hssh⟩).hostKey
      dsimp only at hchecked
      rw [trimmed] at hchecked
      exact hchecked.resolve_left nonempty
    · intro hchecked
      have htrimmed : isHostFingerprint (trimSpace hostKey) = true := by rwa [trimmed]
      exact ⟨_, validate_withHostKey hostKey valid ssh (Or.inr htrimmed)⟩
  rw [haccepts]
  exact hostKeyPattern_eq_iff hostKey

/-- A fingerprint with a line feed after twenty characters. -/
def brokenPin : String := "SHA256:AAAAAAAAAAAAAAAAAAAA\nAAAAAAAAAAAAAAAAAAAAAAA"

theorem host_key_checks_disagree : brokenPin ≠ "" ∧ trimSpace brokenPin = brokenPin ∧
    validate { strayRequest with hostKey := "" } = .ok { strayRequest with hostKey := "" } ∧
    hostKeyPattern.test (jsString brokenPin) = false ∧
    validate { strayRequest with hostKey := brokenPin } =
      .ok { strayRequest with hostKey := brokenPin } := by
  decide

/-- The two checks agree on a fingerprint in one piece. -/
theorem host_key_checks_agree_stray :
    (hostKeyPattern.test (jsString strayRequest.hostKey) = true ↔
        ∃ accepted, validate { strayRequest with hostKey := strayRequest.hostKey } =
          .ok accepted) ↔ ¬ Broken strayRequest.hostKey :=
  host_key_checks_agree_iff (v := { strayRequest with hostKey := "" }) (by decide) rfl
    (by decide) (by decide)

end OpsUp.Ui
