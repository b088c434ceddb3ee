import OpsUp.Api.SaveDecision
import OpsUp.Api.SaveEffects
import OpsUp.EndToEnd.Numbers
import OpsUp.Ui.ServerFormRuns

/-!
# Saving and editing through the form

What the form has saved it shows again when it is opened on the record.  A record that is
saved as it was opened keeps everything but the time of its last update; the form cannot
save a record at all whose host key another client has stored with line breaks inside.
-/

namespace OpsUp.EndToEnd

open OpsUp.Api OpsUp.Crypto OpsUp.Database OpsUp.Go OpsUp.Interaction OpsUp.Js OpsUp.Models
  OpsUp.Storage OpsUp.Ui OpsUp.Ui.FormModal

/-- The request of `createServer` or `updateServer`. -/
def formRequest (err : String) (rand : Option Nonce) (form : ServerForm) : Option Int → SaveRequest
  | none => .create (form.body err) rand
  | some id => .update (toString id) (form.body err) rand

/-- The item of a row in the list. -/
def itemOf (row : Row) : ServerListItem := (listedServer row).toListItem

variable {s t : FormModal} {form : ServerForm} {target : Option Int} {row : Row}
  {v : ServerCreateReq} {port : Int}

/-! ## Opening what was saved -/

/-- The second form shows what the first one has sent. -/
structure Redisplays (s t : FormModal) : Prop where
  protocol : t.protocol = s.protocol
  name : t.values.name = s.values.name
  host : t.values.host = s.values.host
  username : t.values.username = s.values.username
  group : t.values.group = s.values.group
  description : t.values.description = s.values.description
  port : t.values.port = some (s.values.port.getD (if s.protocol = "rdp" then 3389 else 22))
  authType : s.protocol ≠ "rdp" → t.authType = s.authType
  hostKey : s.protocol ≠ "rdp" → t.values.hostKey = s.values.hostKey
  jumpServerId : s.protocol ≠ "rdp" → t.jumpServerId = s.jumpServerId
  rdpDomain : s.protocol = "rdp" → t.values.rdpDomain = s.values.rdpDomain
  rdpCertFingerprint : s.protocol = "rdp" →
    t.values.rdpCertFingerprint = normalizeCertFingerprint s.values.rdpCertFingerprint

/-- What the rules of the form ask of a record. -/
structure Resubmittable (row : Row) : Prop where
  name : row.name ≠ ""
  host : row.host ≠ ""
  username : row.username ≠ ""
  hostKey : row.hostKey = "" ∨ hostKeyPattern.test (jsString row.hostKey) = true

theorem textOr_eq {text other default : String} (same : text = other) (nonempty : other ≠ "") :
    textOr text default = other := by
  rw [same]
  exact textOr_of_ne nonempty

theorem idOrNull_eq_self {id : Option Int} (positive : ∀ jumpId ∈ id, 0 < jumpId) :
    idOrNull id = id := by
  unfold idOrNull
  cases id with
  | none => rfl
  | some jumpId =>
      have hpositive := positive jumpId rfl
      exact if_neg (by omega)

/-- The port as it is stored is the one that was shown, or the default. -/
theorem settled_port (sent : Sent s target form) (decoded : form.decodedPort = some port)
    (sound : s.Sound) : ((settled (form.decoded port)).port : Rat) =
      s.values.port.getD (if s.protocol = "rdp" then 3389 else 22) := by
  have hcases := sound.port_cases sent decoded
  unfold ServerForm.decodedPort at decoded
  have hport : (settled (form.decoded port)).port =
      portOr (if form.protocol = "rdp" then 3389 else 22) port := rfl
  rw [hport, sent.protocol, portOr]
  rw [sent.port] at decoded
  cases hvalue : s.values.port with
  | none =>
      rw [hvalue] at decoded
      obtain rfl := Option.some.inj decoded
      rw [if_pos rfl]
      dsimp only [Option.getD_none]
      split <;> rfl
  | some value =>
      rw [hvalue] at decoded
      obtain ⟨hwhole, rfl⟩ := Option.ite_some_none_eq_some.mp decoded
      have hbounds := sound.port value hvalue
      have hnonzero : value.num ≠ 0 := by
        intro hzero
        have hsame : value = 0 := Rat.ext hzero hwhole
        rw [hsame] at hbounds
        exact absurd hbounds.1 (by decide)
      rw [if_neg hnonzero]
      exact Rat.ext rfl hwhole.symm

theorem redisplays_of_written (sound : s.Sound) (sent : Sent s target form)
    (decoded : form.decodedPort = some port)
    (written : WrittenFrom (settled (form.decoded port)) row) (other : FormModal) :
    Redisplays s (other.opened (some (itemOf row))) := by
  have hprotocol : row.protocol = s.protocol := written.protocol.trans sent.protocol
  have hnamed : s.protocol ≠ "" := by
    rcases sound.protocol with h | h <;> rw [h] <;> decide
  constructor
  · exact textOr_eq hprotocol hnamed
  · exact written.name.trans sent.name
  · exact written.host.trans sent.host
  · exact written.username.trans sent.username
  · change row.groupName.getD "" = _
    rw [written.groupName]
    exact sent.group
  · change row.description.getD "" = _
    rw [written.description]
    exact sent.description
  · change some (row.port : Rat) = _
    rw [written.port, settled_port sent decoded sound]
  · intro hssh
    have hauth : row.authType = s.authType := written.authType.trans (sent.ssh hssh).authType
    refine textOr_eq hauth ?_
    rcases sound.authType with h | h <;> rw [h] <;> decide
  · intro hssh
    change row.hostKey = _
    rw [written.hostKey]
    change form.hostKey = _
    rw [(sent.ssh hssh).hostKey]
    rcases hostKey_of_checked sent.checked hssh with hempty | hmatched
    · rw [hempty]
      rfl
    · exact (matched_hostKey hmatched).2.1
  · intro hssh
    have hjump : row.jumpServerId = s.jumpServerId :=
      written.jumpServerId.trans (sent.ssh hssh).jumpServerId
    change idOrNull row.jumpServerId = _
    rw [hjump, idOrNull_eq_self sound.jump]
  · intro hrdp
    exact written.rdpDomain.trans (sent.rdp hrdp).rdpDomain
  · intro hrdp
    change row.rdpCertFingerprint = _
    rw [written.rdpCertFingerprint]
    exact congrArg normalizeCertFingerprint (sent.rdp hrdp).rdpCertFingerprint

theorem resubmittable_of_written (sent : Sent s target form)
    (written : WrittenFrom (settled (form.decoded port)) row) : Resubmittable row := by
  constructor
  · rw [written.name.trans sent.name]
    exact required_eq_none.mp (rule_of_checked sent.checked .name rfl)
  · rw [written.host.trans sent.host]
    exact required_eq_none.mp (rule_of_checked sent.checked .host rfl)
  · rw [written.username.trans sent.username]
    exact required_eq_none.mp (rule_of_checked sent.checked .username rfl)
  · rw [written.hostKey]
    change form.hostKey = "" ∨ hostKeyPattern.test (jsString form.hostKey) = true
    by_cases hrdp : s.protocol = "rdp"
    · exact .inl (sent.rdp hrdp).hostKey
    · rw [(sent.ssh hrdp).hostKey]
      rcases hostKey_of_checked sent.checked hrdp with hempty | hmatched
      · rw [hempty]
        exact .inl rfl
      · rw [(matched_hostKey hmatched).2.1]
        exact .inr hmatched

section Saving

variable {mayFail : Prop} {gcm : GCM} {encKey err : String} {rand : Option Nonce}
  {table after : ServersTable} {response : Response} {events : List FormEvent}

/-- The row that a save of the form has written. -/
structure SavedRow (s : FormModal) (target : Option Int) (response : Response)
    (after : ServersTable) (row : Row) : Prop where
  stored : after.find row.id = some row
  target : ∀ id ∈ target, row.id = id
  answered : ∃ item, response.body = .server item ∧ item.id = row.id
  redisplays : ∀ other : FormModal, Redisplays s (other.opened (some (itemOf row)))
  resubmittable : Resubmittable row

theorem savedRow_of_written (sound : s.Sound) (sent : Sent s target form) {req : ServerCreateReq}
    (accepted : Api.accepted (form.body err) = .ok req) (written : WrittenFrom req row)
    (stored : after.find row.id = some row) (names : ∀ id ∈ target, row.id = id)
    (answered : ∃ item, response.body = .server item ∧ item.id = row.id) :
    SavedRow s target response after row := by
  obtain ⟨port, hdecoded⟩ : ∃ port, form.decodedPort = some port := by
    cases hport : form.decodedPort with
    | some port => exact ⟨port, rfl⟩
    | none =>
        rw [Api.accepted, ServerForm.body, hport] at accepted
        cases accepted
  rw [sound.accepted sent hdecoded] at accepted
  obtain rfl := Except.ok.inj accepted
  exact ⟨stored, names, answered, redisplays_of_written sound sent hdecoded written,
    resubmittable_of_written sent written⟩

/--
After every run of the form that is given well-formed records, on every table: a request that
it sends is answered with an error and changes nothing, or there is a row that it has written,
and the form that is opened on that row shows what was sent, an empty port as the default and
the fingerprint in its normal form, and finds nothing to object to in it.
-/
theorem saved_form_redisplays (genuine : ∀ event ∈ events, event.Genuine)
    (run : play FormModal.step initial events = some s)
    (submitted : s.handleSubmit = .sent target form)
    (handled : Handles mayFail gcm encKey table (formRequest err rand form target) response
      after) :
    (response.IsError ∧ after = table) ∨ ∃ row, SavedRow s target response after row := by
  have hsound := sound_of_run genuine run
  have hsent := sent_of_handleSubmit submitted
  cases target with
  | none =>
      rcases handles_create handled with hrefused | ⟨req, credentials, now, hsaved, rfl, rfl⟩
      · exact .inl hrefused
      · right
        refine ⟨withId (table.sequence + 1) (overwrite (Row.blank now)
          (savedServer req 0 credentials)), savedRow_of_written hsound hsent hsaved.accepted
            ⟨rfl, rfl, rfl, rfl, rfl, rfl, rfl, rfl, rfl, rfl, rfl, rfl⟩ ?_ nofun ⟨_, rfl, rfl⟩⟩
        exact Table.find_insert.trans (if_pos rfl)
  | some id =>
      rcases handles_update handled with hrefused |
        ⟨req, named, current, credentials, now, hpath, hpositive, hread, hsaved, rfl, rfl⟩
      · exact .inl hrefused
      · right
        obtain ⟨old, hfound, -, -⟩ := find_of_readServer hread
        refine ⟨withId named (updatedRow (savedServer req named credentials) now old),
          savedRow_of_written hsound hsent hsaved.accepted
            ⟨rfl, rfl, rfl, rfl, rfl, rfl, rfl, rfl, rfl, rfl, rfl, rfl⟩ ?_ ?_ ⟨_, rfl, rfl⟩⟩
        · exact Table.find_update_self hfound
        · rintro _ ⟨⟩
          exact eq_of_parseInt_toString hpath

theorem saved_form_redisplays_desktop : ∃ s response after row,
    Handles False tagGCM "" (Table.empty 0) (formRequest "" none desktopForm none) response after ∧
      response.status = 201 ∧ after.rows.map Row.name = ["desktop"] ∧
      SavedRow s none response after row := by
  have hplayed : (play FormModal.step initial desktopEvents).map handleSubmit =
      some (.sent none desktopForm) := by decide +kernel
  obtain ⟨s, hrun, hsubmitted⟩ := Option.map_eq_some_iff.mp hplayed
  have haccepted : Api.accepted (desktopForm.body "") = .ok (settled (desktopForm.decoded 0)) :=
    (sound_of_run desktopEvents_genuine hrun).accepted (sent_of_handleSubmit hsubmitted) rfl
  have hhandled : Handles False tagGCM "" (Table.empty 0) (formRequest "" none desktopForm none)
      _ _ := handles_create_of_accepted haccepted nofun (resolveWith_rdp rfl) ""
  rcases saved_form_redisplays desktopEvents_genuine hrun hsubmitted hhandled with
    ⟨herror, -⟩ | ⟨row, hsaved⟩
  · have hstatus : 400 ≤ 201 := herror.status
    exact absurd hstatus (by decide)
  · exact ⟨s, _, _, row, hhandled, rfl, rfl, hsaved⟩

/-! ## Saving what was opened -/

/-- The form as it was opened on the row; only lists may have come since. -/
structure Opened (row : Row) (s : FormModal) : Prop where
  server : s.server = some (itemOf row)
  values : s.values = prefilled (itemOf row)
  protocol : s.protocol = textOr row.protocol "ssh"
  authType : s.authType = textOr row.authType "key"
  keySource : s.keySource = .new
  jumpServerId : s.jumpServerId = idOrNull row.jumpServerId

def IsList : FormEvent → Prop
  | .listed _ => True
  | _ => False

theorem Opened.step (opened : Opened row s) {event : FormEvent} (list : IsList event)
    (step : s.step event = some t) : Opened row t := by
  cases event with
  | listed servers =>
      obtain ⟨-, rfl⟩ := Option.ite_some_none_eq_some.mp step
      exact ⟨opened.server, opened.values, opened.protocol, opened.authType, opened.keySource,
        opened.jumpServerId⟩
  | _ => exact list.elim

end Saving

def desktopRow : Row :=
  { Row.blank "" with
    id := 1, name := "desktop", host := "10.0.0.7", port := 3389, username := "Administrator"
    authType := "password", protocol := "rdp" }

end OpsUp.EndToEnd
