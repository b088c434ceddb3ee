import OpsUp.Api.RecordInvariant
import OpsUp.Api.StoredRecords
import OpsUp.Api.Validation
import OpsUp.Ui.ServerForm

/-!
# What the form sends

However the form was filled, what passes its own checks passes the checks of the server, but
for a port that is a fraction.
-/

namespace OpsUp.Ui

open OpsUp.Api OpsUp.Database OpsUp.Go OpsUp.Interaction OpsUp.Js OpsUp.Models

/-- What the API shows of a well-formed stored record. -/
def IsListed (item : ServerListItem) : Prop :=
  ∃ row, RecordOk row ∧ 0 < row.id ∧ item = (listedServer row).toListItem

/-- The records that the form is given come from the API. -/
def FormModal.FormEvent.Genuine : FormModal.FormEvent → Prop
  | .opens server => ∀ item ∈ server, IsListed item
  | .listed servers => ∀ item ∈ servers, IsListed item
  | _ => True

theorem authType_of_recordOk {row : Row} (ok : RecordOk row) :
    row.authType = "key" ∨ row.authType = "password" := by
  rcases ok.protocol with hssh | hrdp
  · exact (ok.ssh hssh).credentials.imp And.left And.left
  · exact .inr (ok.rdp hrdp).authType

theorem jump_pos_of_recordOk {row : Row} (ok : RecordOk row) {jumpId : Int}
    (jump : row.jumpServerId = some jumpId) : 0 < jumpId := by
  rcases ok.protocol with hssh | hrdp
  · exact ((ok.ssh hssh).jumpServerId jumpId jump).1
  · rw [(ok.rdp hrdp).jumpServerId] at jump
    cases jump

namespace FormModal

variable {s t : FormModal} {form : ServerForm} {target : Option Int} {err : String}

/-! ## Every run -/

/-- What every run keeps. -/
structure Sound (s : FormModal) : Prop where
  protocol : s.protocol = "ssh" ∨ s.protocol = "rdp"
  authType : s.authType = "key" ∨ s.authType = "password"
  port : InBounds s.values.port
  existing : ∀ item ∈ s.existingServers, 0 < item.id
  jump : ∀ jumpId ∈ s.jumpServerId, 0 < jumpId

theorem sound_initial : Sound initial where
  protocol := .inl rfl
  authType := .inl rfl
  port := nofun
  existing := nofun
  jump := nofun

theorem textOr_of_ne {text default : String} (nonempty : text ≠ "") : textOr text default = text :=
  if_neg nonempty

theorem idOrNull_eq_some {id : Option Int} {jumpId : Int} (same : idOrNull id = some jumpId) :
    id = some jumpId := by
  unfold idOrNull at same
  split at same
  · cases same
  · split at same
    · cases same
    · exact same

theorem inBounds_whole (port : Int) (pos : 1 ≤ port) (le : port ≤ 65535) :
    InBounds (some (port : Rat)) := by
  rintro _ ⟨⟩
  exact ⟨Rat.intCast_le_intCast.mpr pos, Rat.intCast_le_intCast.mpr le⟩

theorem Sound.opened (sound : s.Sound) (server : Option ServerListItem)
    (genuine : ∀ item ∈ server, IsListed item) : (s.opened server).Sound := by
  cases server with
  | none =>
      refine ⟨.inl rfl, .inl rfl, ?_, sound.existing, nofun⟩
      exact inBounds_whole 22 (by decide) (by decide)
  | some item =>
      obtain ⟨row, hok, -, rfl⟩ := genuine item rfl
      have hprotocol : row.protocol ≠ "" := by
        rcases hok.protocol with h | h <;> rw [h] <;> decide
      have hauth : row.authType ≠ "" := by
        rcases authType_of_recordOk hok with h | h <;> rw [h] <;> decide
      constructor
      · change textOr row.protocol "ssh" = "ssh" ∨ textOr row.protocol "ssh" = "rdp"
        rw [textOr_of_ne hprotocol]
        exact hok.protocol
      · change textOr row.authType "key" = "key" ∨ textOr row.authType "key" = "password"
        rw [textOr_of_ne hauth]
        exact authType_of_recordOk hok
      · exact inBounds_whole _ hok.port_pos hok.port_le
      · exact sound.existing
      · exact fun jumpId hjump => jump_pos_of_recordOk hok (idOrNull_eq_some hjump)

theorem port_set (field : FormField) (text : String) (form : ServerForm) :
    (field.set text form).port = form.port := by
  cases field <;> rfl

theorem Sound.of_reuseOptions (sound : s.Sound) (id : Int)
    (option : id ∈ s.reuseOptions.map ServerListItem.id) : 0 < id := by
  obtain ⟨item, hitem, rfl⟩ := List.mem_map.mp option
  exact sound.existing item (List.mem_filter.mp hitem).1

theorem Sound.step (sound : s.Sound) {event : FormEvent} (genuine : event.Genuine)
    (step : s.step event = some t) : t.Sound := by
  have hopened := sound.opened
  have hoption := sound.of_reuseOptions
  obtain ⟨hprotocol, hauth, hport, hexisting, hjump⟩ := sound
  cases event with
  | opens server =>
      obtain rfl := Option.some.inj step
      exact hopened server genuine
  | closes =>
      obtain rfl := Option.some.inj step
      exact ⟨hprotocol, hauth, hport, hexisting, hjump⟩
  | listed servers =>
      obtain ⟨-, rfl⟩ := Option.ite_some_none_eq_some.mp step
      refine ⟨hprotocol, hauth, hport, fun item hitem => ?_, hjump⟩
      obtain ⟨row, -, hpositive, rfl⟩ := genuine item hitem
      exact hpositive
  | types field text =>
      obtain ⟨-, rfl⟩ := Option.ite_some_none_eq_some.mp step
      exact ⟨hprotocol, hauth, (port_set field _ _).symm ▸ hport, hexisting, hjump⟩
  | typesKey text =>
      obtain ⟨-, rfl⟩ := Option.ite_some_none_eq_some.mp step
      exact ⟨hprotocol, hauth, hport, hexisting, hjump⟩
  | importsKey text =>
      obtain rfl := Option.some.inj step
      exact ⟨hprotocol, hauth, hport, hexisting, hjump⟩
  | setsPort value =>
      obtain ⟨hbounds, rfl⟩ := Option.ite_some_none_eq_some.mp step
      exact ⟨hprotocol, hauth, hbounds, hexisting, hjump⟩
  | choosesProtocol value =>
      obtain ⟨hvalue, rfl⟩ := Option.ite_some_none_eq_some.mp step
      refine ⟨hvalue, hauth, ?_, hexisting, hjump⟩
      dsimp only
      split
      · exact inBounds_whole 3389 (by decide) (by decide)
      · exact inBounds_whole 22 (by decide) (by decide)
  | choosesAuthType value =>
      obtain ⟨hvalue, rfl⟩ := Option.ite_some_none_eq_some.mp step
      exact ⟨hprotocol, hvalue.2, hport, hexisting, hjump⟩
  | choosesKeySource value =>
      obtain ⟨-, rfl⟩ := Option.ite_some_none_eq_some.mp step
      exact ⟨hprotocol, hauth, hport, hexisting, hjump⟩
  | choosesReused id =>
      obtain ⟨-, rfl⟩ := Option.ite_some_none_eq_some.mp step
      exact ⟨hprotocol, hauth, hport, hexisting, hjump⟩
  | choosesJump id =>
      obtain ⟨hvalue, rfl⟩ := Option.ite_some_none_eq_some.mp step
      refine ⟨hprotocol, hauth, hport, hexisting, fun jumpId hchosen => ?_⟩
      exact hoption jumpId (hvalue.2 jumpId hchosen)

theorem sound_of_run {events : List FormEvent} (genuine : ∀ event ∈ events, event.Genuine)
    (run : play FormModal.step initial events = some s) : s.Sound :=
  play_preserves_of_forall Sound FormEvent.Genuine sound_initial
    (fun hgenuine hsound hstep => hsound.step hgenuine hstep) run genuine

/-! ## What is sent -/

/-- What a request for SSH holds of the form. -/
structure SentSSH (s : FormModal) (form : ServerForm) : Prop where
  rdpDomain : form.rdpDomain = ""
  rdpCertFingerprint : form.rdpCertFingerprint = ""
  authType : form.authType = s.authType
  hostKey : form.hostKey = trim s.values.hostKey
  jumpServerId : form.jumpServerId = s.jumpServerId
  password : s.authType = "password" → form.privateKey = "" ∧ form.copyKeyFrom = 0 ∧
    form.password = s.values.password ∧ (s.server = none → form.password ≠ "")
  key : s.authType ≠ "password" → form.password = "" ∧
    ((∃ id, s.reused = some id ∧ form.privateKey = "" ∧ form.copyKeyFrom = id) ∨
      (s.reused = none ∧ form.privateKey = s.values.privateKey ∧ form.copyKeyFrom = 0 ∧
        (s.server = none → form.privateKey ≠ "")))

/-- What a request for RDP holds of the form. -/
structure SentRDP (s : FormModal) (form : ServerForm) : Prop where
  rdpDomain : form.rdpDomain = s.values.rdpDomain
  rdpCertFingerprint : form.rdpCertFingerprint = s.values.rdpCertFingerprint
  authType : form.authType = "password"
  hostKey : form.hostKey = ""
  jumpServerId : form.jumpServerId = none
  password : form.password = ""
  privateKey : form.privateKey = ""
  copyKeyFrom : form.copyKeyFrom = 0

/-- What a request holds of the form. -/
structure Sent (s : FormModal) (target : Option Int) (form : ServerForm) : Prop where
  checked : s.messages = []
  target : target = s.server.map ServerListItem.id
  protocol : form.protocol = s.protocol
  name : form.name = s.values.name
  host : form.host = s.values.host
  port : form.port = s.values.port
  username : form.username = s.values.username
  group : form.group = s.values.group
  description : form.description = s.values.description
  ssh : s.protocol ≠ "rdp" → SentSSH s form
  rdp : s.protocol = "rdp" → SentRDP s form

theorem kept_of_mounts (field : FormField) (mounted : s.mounts field = true) :
    s.kept field = field.text s.values := if_pos mounted

theorem kept_of_not_mounts (field : FormField) (unmounted : s.mounts field = false) :
    s.kept field = "" := if_neg (by simp [unmounted])

/-- A request for SSH with these credentials. -/
theorem sent_ssh (checked : s.messages = []) (ssh : s.protocol ≠ "rdp") {values : ServerForm}
    (base : values = { s.registered with
      authType := s.authType, hostKey := trim (s.kept .hostKey), protocol := s.protocol
      password := values.password, privateKey := values.privateKey
      copyKeyFrom := values.copyKeyFrom })
    (password : s.authType = "password" → values.privateKey = "" ∧ values.copyKeyFrom = 0 ∧
      values.password = s.values.password ∧ (s.server = none → values.password ≠ ""))
    (key : s.authType ≠ "password" → values.password = "" ∧
      ((∃ id, s.reused = some id ∧ values.privateKey = "" ∧ values.copyKeyFrom = id) ∨
        (s.reused = none ∧ values.privateKey = s.values.privateKey ∧ values.copyKeyFrom = 0 ∧
          (s.server = none → values.privateKey ≠ ""))))
    (submitted : s.send values = .sent target form) : Sent s target form := by
  obtain ⟨rfl, rfl⟩ := Submission.sent.inj submitted
  have hkey : s.kept .hostKey = s.values.hostKey :=
    kept_of_mounts .hostKey (decide_eq_true ssh)
  have hdomain : s.kept .rdpDomain = "" :=
    kept_of_not_mounts .rdpDomain (decide_eq_false ssh)
  have hcert : s.kept .rdpCertFingerprint = "" :=
    kept_of_not_mounts .rdpCertFingerprint (decide_eq_false ssh)
  rw [base]
  refine ⟨checked, rfl, rfl, rfl, rfl, rfl, rfl, rfl, rfl, fun _ => ?_, fun hrdp => absurd hrdp ssh⟩
  exact ⟨hdomain, hcert, rfl, congrArg trim hkey, if_neg ssh, password, key⟩

theorem sent_of_handleSubmit (submitted : s.handleSubmit = .sent target form) :
    Sent s target form := by
  unfold handleSubmit validateFields at submitted
  by_cases hchecked : s.messages = []
  · rw [if_pos hchecked] at submitted
    dsimp only at submitted
    by_cases hrdp : s.protocol = "rdp"
    · rw [if_pos hrdp] at submitted
      obtain ⟨rfl, rfl⟩ := Submission.sent.inj submitted
      have hdomain : s.kept .rdpDomain = s.values.rdpDomain :=
        kept_of_mounts .rdpDomain (decide_eq_true hrdp)
      have hcert : s.kept .rdpCertFingerprint = s.values.rdpCertFingerprint :=
        kept_of_mounts .rdpCertFingerprint (decide_eq_true hrdp)
      refine ⟨hchecked, rfl, rfl, rfl, rfl, rfl, rfl, rfl, rfl, fun hssh => absurd hrdp hssh,
        fun _ => ⟨hdomain, hcert, rfl, rfl, if_pos hrdp, rfl, rfl, rfl⟩⟩
    · rw [if_neg hrdp] at submitted
      by_cases hauth : s.authType = "password"
      · rw [if_pos hauth] at submitted
        have hpassword : s.kept .password = s.values.password :=
          kept_of_mounts .password (decide_eq_true ⟨hrdp, hauth⟩)
        split at submitted
        · cases submitted
        · next hgiven =>
            refine sent_ssh hchecked hrdp rfl ?_ (fun hkey => absurd hauth hkey) submitted
            exact fun _ => ⟨rfl, rfl, hpassword, fun hnew hempty => hgiven ⟨hnew, hempty⟩⟩
      · rw [if_neg hauth] at submitted
        unfold submitKey at submitted
        cases hreused : s.reused with
        | some id =>
            rw [hreused] at submitted
            refine sent_ssh hchecked hrdp rfl (fun hpassword => absurd hpassword hauth) ?_ submitted
            exact fun _ => ⟨rfl, .inl ⟨id, hreused, rfl, rfl⟩⟩
        | none =>
            rw [hreused] at submitted
            dsimp only at submitted
            split at submitted
            · cases submitted
            · next hgiven =>
                refine sent_ssh hchecked hrdp rfl (fun hpassword => absurd hpassword hauth) ?_
                  submitted
                exact fun _ => ⟨rfl, .inr ⟨hreused, rfl, rfl,
                  fun hnew hempty => hgiven ⟨hnew, hempty⟩⟩⟩
  · rw [if_neg hchecked] at submitted
    cases submitted

/-! ## What the rules check -/

theorem rule_of_checked (checked : s.messages = []) (field : FormField)
    (mounted : s.mounts field = true) : field.rule (field.text s.values) = none := by
  have hall : field ∈ FormField.all := by cases field <;> decide
  have hrule := List.filterMap_eq_nil_iff.mp checked field hall
  rwa [if_pos mounted] at hrule

theorem required_eq_none {message value : String} :
    FormField.required message value = none ↔ value ≠ "" := by
  simp [FormField.required]

theorem matching_eq_none {test : String → Bool} {message value : String} :
    FormField.matching test message value = none ↔ value = "" ∨ test value = true := by
  unfold FormField.matching
  split <;> simp_all

theorem hostKey_of_checked (checked : s.messages = []) (ssh : s.protocol ≠ "rdp") :
    s.values.hostKey = "" ∨ hostKeyPattern.test (jsString s.values.hostKey) = true := by
  have hrule := rule_of_checked checked .hostKey (decide_eq_true ssh)
  rwa [FormField.rule, matching_eq_none] at hrule

theorem fingerprint_of_checked (checked : s.messages = []) (rdp : s.protocol = "rdp") :
    s.values.rdpCertFingerprint = "" ∨ certPatternTest s.values.rdpCertFingerprint = true := by
  have hrule := rule_of_checked checked .rdpCertFingerprint (decide_eq_true rdp)
  rwa [FormField.rule, matching_eq_none] at hrule

/-- A host key that matches the pattern is taken as it is. -/
theorem matched_hostKey {hostKey : String} (matched : hostKeyPattern.test (jsString hostKey) = true) :
    isHostFingerprint hostKey = true ∧ trim hostKey = hostKey ∧ trimSpace hostKey = hostKey := by
  obtain ⟨values, -, hsmall, rfl⟩ := hostKeyPattern_iff.mp matched
  have hall : hostKeyPrefix.toList.all (fun c => !isSpace c && !isWhiteSpace c) = true := by decide
  have hprefix : ∀ c ∈ hostKeyPrefix.toList, isSpace c = false ∧ isWhiteSpace c = false := by
    intro c hc
    simpa using List.all_eq_true.mp hall c hc
  have hdigit : ∀ value < 64, isSpace (base64Char value) = false ∧
      isWhiteSpace (base64Char value) = false := by decide
  have hvisible : ∀ c ∈ (hostKeyPrefix ++ String.ofList (values.map base64Char)).toList,
      isSpace c = false ∧ isWhiteSpace c = false := by
    intro c hc
    rw [String.toList_append, String.toList_ofList] at hc
    rcases List.mem_append.mp hc with hfront | hback
    · exact hprefix c hfront
    · obtain ⟨value, hvalue, rfl⟩ := List.mem_map.mp hback
      exact hdigit value (hsmall value hvalue)
  refine ⟨isHostFingerprint_iff_pattern.mpr ⟨_, rfl, ?_⟩,
    trim_of_visible fun c hc => (hvisible c hc).2,
    trimSpace_of_visible fun c hc => (hvisible c hc).1⟩
  rwa [withoutLineBreaks_eq (unbroken_of_hostKeyPattern matched)]

/-! ## What the server makes of it -/

/-- The request as `validate` leaves it behind. -/
def settled (r : ServerCreateReq) : ServerCreateReq :=
  { r with
    port := portOr (if r.protocol = "rdp" then 3389 else 22) r.port
    rdpCertFingerprint := normalizeCertFingerprint r.rdpCertFingerprint }

/-- The port is left to the server or within the bounds. -/
theorem Sound.port_cases (sound : s.Sound) (sent : Sent s target form) {port : Int}
    (decoded : form.decodedPort = some port) : port = 0 ∨ (1 ≤ port ∧ port ≤ 65535) := by
  unfold ServerForm.decodedPort at decoded
  rw [sent.port] at decoded
  have hbounds := sound.port
  cases hport : s.values.port with
  | none =>
      rw [hport] at decoded
      exact .inl (Option.some.inj decoded).symm
  | some value =>
      rw [hport] at decoded hbounds
      obtain ⟨hwhole, rfl⟩ := Option.ite_some_none_eq_some.mp decoded
      obtain ⟨hpos, hle⟩ := hbounds value rfl
      have hvalue : (value.num : Rat) = value := Rat.ext rfl hwhole.symm
      rw [← hvalue] at hpos hle
      exact .inr ⟨Rat.intCast_le_intCast.mp hpos, Rat.intCast_le_intCast.mp hle⟩

theorem portOr_bounds (default : Int) {port : Int} (positive : 1 ≤ default) (small : default ≤ 65535)
    (cases : port = 0 ∨ (1 ≤ port ∧ port ≤ 65535)) :
    1 ≤ portOr default port ∧ portOr default port ≤ 65535 := by
  unfold portOr
  split <;> omega

theorem Sent.missingFields (sent : Sent s target form) (port : Int) :
    missingFields (form.decoded port) = [] := by
  have hname := required_eq_none.mp (rule_of_checked sent.checked .name rfl)
  have hhost := required_eq_none.mp (rule_of_checked sent.checked .host rfl)
  have husername := required_eq_none.mp (rule_of_checked sent.checked .username rfl)
  have hvalues := (⟨sent.name, sent.host, sent.username⟩ : _ ∧ _ ∧ _)
  simp only [FormField.text] at hname hhost husername
  simp [Api.missingFields, ServerForm.decoded, hvalues, hname, hhost, husername]

theorem Sound.validSSH (sound : s.Sound) (sent : Sent s target form) (ssh : s.protocol ≠ "rdp")
    {port : Int} (decoded : form.decodedPort = some port) :
    ValidSSH (form.decoded port) (settled (form.decoded port)) := by
  have hsent := sent.ssh ssh
  have hprotocol : form.protocol = "ssh" := sent.protocol.trans (sound.protocol.resolve_right ssh)
  have hbounds := portOr_bounds 22 (by decide) (by decide)
    (sound.port_cases sent decoded)
  have hauth : authTypeOr form.authType = form.authType := by
    unfold authTypeOr
    rw [hsent.authType]
    rcases sound.authType with h | h <;> rw [h] <;> rfl
  have hkey : trimSpace form.hostKey = form.hostKey ∧
      (form.hostKey = "" ∨ isHostFingerprint form.hostKey = true) := by
    rw [hsent.hostKey]
    rcases hostKey_of_checked sent.checked ssh with hempty | hmatched
    · rw [hempty]
      exact ⟨rfl, .inl rfl⟩
    · obtain ⟨hchecked, htrim, htrimSpace⟩ := matched_hostKey hmatched
      rw [htrim, htrimSpace]
      exact ⟨rfl, .inr hchecked⟩
  constructor
  · exact .inr hprotocol
  · exact hbounds.1
  · exact hbounds.2
  · change authTypeOr form.authType = _ ∨ authTypeOr form.authType = _
    rw [hauth, hsent.authType]
    exact sound.authType
  · change trimSpace form.hostKey = _ ∨ isHostFingerprint (trimSpace form.hostKey) = _
    rw [hkey.1]
    exact hkey.2
  · intro jumpId hjump
    exact sound.jump jumpId (hsent.jumpServerId ▸ hjump)
  · simp only [settled, ServerForm.decoded, hprotocol, hsent.rdpDomain, hsent.rdpCertFingerprint,
      hauth, hkey.1]
    rfl

theorem Sound.validRDP (sound : s.Sound) (sent : Sent s target form) (rdp : s.protocol = "rdp")
    {port : Int} (decoded : form.decodedPort = some port) :
    ValidRDP (form.decoded port) (settled (form.decoded port)) := by
  have hsent := sent.rdp rdp
  have hprotocol : form.protocol = "rdp" := sent.protocol.trans rdp
  have hbounds := portOr_bounds 3389 (by decide) (by decide)
    (sound.port_cases sent decoded)
  constructor
  · exact hprotocol
  · exact hbounds.1
  · exact hbounds.2
  · exact hsent.password
  · exact hsent.privateKey
  · exact hsent.copyKeyFrom
  · exact hsent.hostKey
  · exact hsent.jumpServerId
  · change normalizeCertFingerprint form.rdpCertFingerprint = "" ∨
      isCertFingerprint (normalizeCertFingerprint form.rdpCertFingerprint) = true
    rw [hsent.rdpCertFingerprint]
    rcases fingerprint_of_checked sent.checked rdp with hempty | hmatched
    · rw [hempty]
      exact .inl rfl
    · exact .inr (isCertFingerprint_iff.mpr (spellsDigest_of_certPatternTest hmatched))
  · simp only [settled, ServerForm.decoded, hprotocol, hsent.authType]
    rfl

/-- What is sent with a whole port is accepted. -/
theorem Sound.accepted (sound : s.Sound) (sent : Sent s target form) {port : Int}
    (decoded : form.decodedPort = some port) :
    accepted (form.body err) = .ok (settled (form.decoded port)) := by
  have hbound : shouldBindJSON (form.body err) = .ok (form.decoded port) := by
    unfold ServerForm.body shouldBindJSON
    rw [decoded]
    exact if_pos (sent.missingFields port)
  rw [Api.accepted, hbound]
  by_cases hrdp : s.protocol = "rdp"
  · exact (validate_rdp_iff.mpr (sound.validRDP sent hrdp decoded)).1
  · exact (validate_ssh_iff.mpr (sound.validSSH sent hrdp decoded)).1

def desktopPin : String :=
  "00:01:02:03:04:05:06:07:08:09:0A:0B:0C:0D:0E:0F:" ++
    "10:11:12:13:14:15:16:17:18:19:1A:1B:1C:1D:1E:1F"

/-- A desktop is added, its fingerprint copied with colons and the port left to the server. -/
def desktopEvents : List FormEvent :=
  [.opens none, .listed [], .types .name "desktop", .types .host "10.0.0.7",
    .types .username "Administrator", .choosesProtocol "rdp", .setsPort none,
    .types .rdpCertFingerprint desktopPin]

def desktopForm : ServerForm :=
  { ServerForm.empty with
    protocol := "rdp", rdpCertFingerprint := desktopPin, name := "desktop", host := "10.0.0.7"
    username := "Administrator", authType := "password" }

theorem desktopEvents_genuine : ∀ event ∈ desktopEvents, event.Genuine := by
  intro event hevent
  simp only [desktopEvents, List.mem_cons, List.not_mem_nil, or_false] at hevent
  rcases hevent with rfl | rfl | rfl | rfl | rfl | rfl | rfl | rfl <;> simp [FormEvent.Genuine]

end FormModal

end OpsUp.Ui
