import CyberstalkMe.Api.Report

/-! # One device's token

A report names its device several times: by the token, in the body, and in every write and event that
follows. All of them are the device that is registered with the presented token.
-/
namespace CyberstalkMe.Api

open Go Shared Store Foundations

def presentedToken (header : String) : Option String :=
  let bearer := "Bearer ".toList
  let runes := header.toList
  if runes.length ≤ bearer.length ∨ !equalFold (runes.take bearer.length) bearer then none
  else
    let token := trimSpace (String.ofList (runes.drop bearer.length))
    if token = "" then none else some token

/-- The device is registered, with the presented token. -/
def Presents (db : DB) (tokenOf : String → String) (header id : String) : Prop :=
  (db.devices.lookup id).isSome ∧ presentedToken header = some (tokenOf id)

/-- Each registered device has the hash of its token, which is not the hash of another presented one. -/
structure TokensHashed (cfg : Config) (db : DB) (tokenOf : String → String) (header : String) : Prop where
  hashed : ∀ id d, db.devices.lookup id = some d → d.tokenHash = cfg.hashToken (tokenOf id)
  collisionFree : ∀ id token, (db.devices.lookup id).isSome → presentedToken header = some token →
    cfg.hashToken (tokenOf id) = cfg.hashToken token → tokenOf id = token

/-- All that is stored and known of a device is the same. -/
structure SameDevice (srv srv' : Server) (id : String) : Prop where
  state : srv'.db.deviceState.lookup id = srv.db.deviceState.lookup id
  usage : ∀ key, key.deviceID = id → srv'.db.usageBucket.lookup key = srv.db.usageBucket.lookup key
  known : id ∈ srv'.known ↔ id ∈ srv.known

/-- The event is of the device, under the name and the type of its row. -/
def EventOf (db : DB) (id : String) (ev : Event) : Prop :=
  ∃ d, db.devices.lookup id = some d ∧ ev.device.deviceID = id ∧ ev.device.deviceName = d.deviceName ∧
    ev.device.deviceType = d.deviceType

/-- The stored payload is of the device, under the name and the type of its row. -/
def PayloadOf (db : DB) (id : String) (s : StateRecord) : Prop :=
  ∃ d p, db.devices.lookup id = some d ∧ unmarshal s.lastReportJSON = some p ∧ p.deviceID = id ∧
    p.deviceName = d.deviceName ∧ p.deviceType = d.deviceType

/-- The header is missing or malformed, its token is unknown, the body is undecodable, or the body is of
another device. -/
def Foreign (db : DB) (tokenOf : String → String) (req : Request) : Prop :=
  presentedToken req.authorization = none ∨ (∀ id, ¬ Presents db tokenOf req.authorization id) ∨
    unmarshal req.body = none ∨
      ∃ p, unmarshal req.body = some p ∧ ¬ Presents db tokenOf req.authorization p.deviceID

/-! ### The device of a token -/

theorem authFromBearer_eq (cfg : Config) (db : DB) (header : String) (fails : Bool) :
    authFromBearer cfg db header fails =
      match presentedToken header with
      | none => .error .badToken
      | some token => match lookupByTokenHash db (cfg.hashToken token) fails with
        | .ok dev => .ok dev
        | .error .deviceNotFound => .error .badToken
        | .error e => .error (.lookup e) := by
  rw [authFromBearer, presentedToken]
  dsimp only
  split_ifs <;> rfl

section Token
variable {cfg : Config} {db : DB} {tokenOf : String → String} {header : String}

theorem presents_of_authFromBearer (htokens : TokensHashed cfg db tokenOf header) {fails : Bool}
    {dev : Store.Device} (h : authFromBearer cfg db header fails = .ok dev) :
    Presents db tokenOf header dev.deviceID ∧ ∃ d, db.devices.lookup dev.deviceID = some d ∧
      dev.deviceName = d.deviceName ∧ dev.deviceType = d.deviceType := by
  rw [authFromBearer_eq] at h
  cases htoken : presentedToken header with
  | none =>
    rw [htoken] at h
    cases h
  | some token =>
    simp only [htoken] at h
    split at h
    · rename_i hlookup
      cases h
      obtain ⟨d, hrow, hhash, hname, htype⟩ := row_of_lookupByTokenHash hlookup
      have hreg : (db.devices.lookup dev.deviceID).isSome := by rw [hrow]; rfl
      have hown := htokens.collisionFree dev.deviceID token hreg htoken ((htokens.hashed _ d hrow).symm.trans hhash)
      exact ⟨⟨hreg, by rw [htoken, hown]⟩, d, hrow, hname, htype⟩
    · cases h
    · cases h

/-- What a request that is not rejected is about. -/
structure Authentic (db : DB) (tokenOf : String → String) (req : Request) (o : Observation) : Prop where
  presents : Presents db tokenOf req.authorization o.id
  body : ∃ p, unmarshal req.body = some p ∧ p.deviceID = o.id
  row : ∃ d, db.devices.lookup o.id = some d ∧ o.device.deviceName = d.deviceName ∧ o.device.deviceType = d.deviceType
  stamped : o.payload.deviceID = o.id ∧ o.payload.deviceName = o.device.deviceName ∧
    o.payload.deviceType = o.device.deviceType

theorem checkReport_authentic {req : Request} {lookupFails : Bool} {dev : Store.Device} {p : ReportPayload}
    (h : checkReport cfg db req lookupFails = .ok (dev, p)) :
    authFromBearer cfg db req.authorization lookupFails = .ok dev ∧ unmarshal req.body = some p ∧
      p.deviceID = dev.deviceID := by
  rw [checkReport] at h
  split at h
  · cases h
  · cases h
  · rename_i hauth
    split at h
    · cases h
    · rename_i hbody
      split_ifs at h with hblank htype hid
      cases h
      exact ⟨hauth, hbody, not_not.mp hid⟩

theorem stamp_identity {dev : Store.Device} {p : ReportPayload} {seenAt : Time} {o : Observation}
    (h : stamp dev p seenAt = .ok o) : o.payload.deviceID = dev.deviceID ∧ o.payload.deviceName = dev.deviceName ∧
      o.payload.deviceType = dev.deviceType := by
  unfold stamp at h
  dsimp only at h
  split at h
  · cases h
  · cases h
    exact ⟨rfl, rfl, rfl⟩

theorem prepare_authentic {req : Request} (htokens : TokensHashed cfg db tokenOf req.authorization) {now : Time}
    {lookupFails : Bool} {o : Observation} (h : prepare cfg db req now lookupFails = .ok o) :
    Authentic db tokenOf req o := by
  obtain ⟨dev, p, hcheck, hstamp⟩ := prepare_eq_ok.mp h
  have hdev : o.device = dev := (stamp_eq_ok hstamp).1
  subst hdev
  have hchecked := checkReport_authentic hcheck
  have hauth := presents_of_authFromBearer htokens hchecked.1
  exact ⟨hauth.1, ⟨p, hchecked.2⟩, hauth.2, stamp_identity hstamp⟩

end Token

theorem not_foreign {db : DB} {tokenOf : String → String} {req : Request} {o : Observation}
    (h : Authentic db tokenOf req o) : ¬ Foreign db tokenOf req := by
  obtain ⟨p, hbody, hid⟩ := h.body
  rintro (hnone | hunknown | hmalformed | ⟨p', hbody', hother⟩)
  · rw [h.presents.2] at hnone
    cases hnone
  · exact hunknown o.id h.presents
  · rw [hbody] at hmalformed
    cases hmalformed
  · rw [hbody] at hbody'
    cases hbody'
    exact hother (hid ▸ h.presents)

/-! ### The writes of a report -/

theorem SameDevice.refl (srv : Server) (id : String) : SameDevice srv srv id :=
  ⟨rfl, fun _ _ => rfl, Iff.rfl⟩

theorem lookup_addDeltas_ne {id : String} {key : UsageKey} (h : key.deviceID ≠ id) (deltas : List UsageDelta)
    (table : KeyedTable UsageKey ℤ) : (deltas.foldl (addDelta id) table).lookup key = table.lookup key := by
  induction deltas generalizing table with
  | nil => rfl
  | cons d ds ih =>
    have hne : key ≠ d.key id := fun heq => h (congrArg UsageKey.deviceID heq)
    rw [List.foldl_cons, ih, lookup_addDelta, if_neg hne]

section Writes
variable (cfg : Config) (srv : Server) (o : Observation) (faults : Faults) {id : String} (h : id ≠ o.id)
include h

theorem sameDevice_creditReport : SameDevice srv { srv with db := creditReport cfg srv.db o faults } id where
  state := rfl
  usage _ hkey := lookup_addDeltas_ne (hkey ▸ h) _ _
  known := Iff.rfl

theorem sameDevice_acceptReport : SameDevice srv (acceptReport cfg srv o faults) id where
  state := by
    rw [acceptReport, lookup_storeObservation, if_neg h]
    rfl
  usage _ hkey := lookup_addDeltas_ne (hkey ▸ h) _ _
  known := by simp [acceptReport, State.markOnline, h]

end Writes

/-- A report changes at most what is stored of the device that is registered with its token, and
broadcasts and stores it under the identity of that device's row. With any other token or body it changes
nothing. -/
theorem report_isolated (cfg : Config) (srv : Server) {tokenOf : String → String} (req : Request) (now : Time)
    (faults : Faults) (htokens : TokensHashed cfg srv.db tokenOf req.authorization) :
    let srv' := (report cfg srv req now faults).1
    srv'.db.devices = srv.db.devices ∧
      (∀ id, ¬ Presents srv.db tokenOf req.authorization id → SameDevice srv srv' id) ∧
      (srv'.hub = srv.hub ∨ ∃ id ev, Presents srv.db tokenOf req.authorization id ∧ EventOf srv.db id ev ∧
        srv'.hub = srv.hub.broadcast ev) ∧
      (∀ id, srv'.db.deviceState.lookup id = srv.db.deviceState.lookup id ∨
        ∃ s, srv'.db.deviceState.lookup id = some s ∧ PayloadOf srv.db id s) ∧
      (Foreign srv.db tokenOf req → srv' = srv) := by
  intro srv'
  rcases report_cases cfg srv req now faults with ⟨resp, -, -, hrun⟩ | ⟨o, hprep, ⟨-, hrun⟩ | ⟨-, hrun⟩⟩
  · have hsrv : srv' = srv := congrArg Prod.fst hrun
    rw [hsrv]
    exact ⟨rfl, fun id _ => .refl srv id, .inl rfl, fun id => .inl rfl, fun _ => rfl⟩
  · have hsrv : srv' = { srv with db := creditReport cfg srv.db o faults } := congrArg Prod.fst hrun
    have hauth := prepare_authentic htokens hprep
    rw [hsrv]
    refine ⟨rfl, fun id hid => ?_, .inl rfl, fun id => .inl rfl, fun hforeign => absurd hforeign (not_foreign hauth)⟩
    exact sameDevice_creditReport cfg srv o faults fun heq => hid (heq ▸ hauth.presents)
  · have hsrv : srv' = acceptReport cfg srv o faults := congrArg Prod.fst hrun
    have hauth := prepare_authentic htokens hprep
    obtain ⟨d, hrow, hname, htype⟩ := hauth.row
    rw [hsrv]
    refine ⟨rfl, fun id hid => ?_, .inr ⟨o.id, o.event, hauth.presents, ⟨d, hrow, rfl, hname, htype⟩, rfl⟩,
      fun id => ?_, fun hforeign => absurd hforeign (not_foreign hauth)⟩
    · exact sameDevice_acceptReport cfg srv o faults fun heq => hid (heq ▸ hauth.presents)
    · by_cases hid : id = o.id
      · subst hid
        refine .inr ⟨o.record, ?_, d, o.payload, hrow, prepare_unmarshal hprep, hauth.stamped.1,
          hauth.stamped.2.1.trans hname, hauth.stamped.2.2.trans htype⟩
        rw [acceptReport, lookup_storeObservation, if_pos rfl]
      · exact .inl (sameDevice_acceptReport cfg srv o faults hid).state

namespace Sample

/-- A second device beside the one of the sample deployment. -/
def twoDevices : DB := registerDevice db "d2" "Phone" "android" (hashToken "tok-2") (clock 60)

def tokenOf (id : String) : String := if id = "d1" then "tok-1" else "tok-2"

/-- The token of the first device with a body of the second. -/
def mixedRequest : Request :=
  ⟨"Bearer tok-1", .payload ⟨"d2", "Phone", "android", ⟨"Code", "writing", false, 0, false⟩, none, none, default⟩⟩

theorem presentedToken_tok1 : presentedToken "Bearer tok-1" = some "tok-1" := by decide +kernel

theorem tokensHashed_twoDevices : TokensHashed config twoDevices tokenOf "Bearer tok-1" where
  hashed id d h := by
    rw [KeyedTable.lookup_eq_some] at h
    have hall : twoDevices.devices.rows.all fun r => decide (r.2.tokenHash = config.hashToken (tokenOf r.1)) := by
      decide +kernel
    exact of_decide_eq_true (List.all_eq_true.mp hall _ h)
  collisionFree id token _ htoken hhash := by
    rw [presentedToken_tok1, Option.some.injEq] at htoken
    subst htoken
    unfold tokenOf at *
    split_ifs at * with hid
    · rfl
    · exact absurd hhash (by decide)

theorem report_isolated_sample :
    SameDevice ⟨twoDevices, ∅, Hub.new⟩
        (report config ⟨twoDevices, ∅, Hub.new⟩ (request "Code" "writing" default) (clock 120) .none).1 "d2" ∧
      (report config ⟨twoDevices, ∅, Hub.new⟩ mixedRequest (clock 120) .none).1 = ⟨twoDevices, ∅, Hub.new⟩ := by
  have hother : ¬ Presents twoDevices tokenOf "Bearer tok-1" "d2" := by
    intro h
    have htoken := h.2
    rw [presentedToken_tok1] at htoken
    exact absurd htoken (by decide)
  constructor
  · exact (report_isolated config ⟨twoDevices, ∅, Hub.new⟩ (request "Code" "writing" default) (clock 120) .none
      tokensHashed_twoDevices).2.1 "d2" hother
  · exact (report_isolated config ⟨twoDevices, ∅, Hub.new⟩ mixedRequest (clock 120) .none
      tokensHashed_twoDevices).2.2.2.2 (.inr (.inr (.inr ⟨_, rfl, hother⟩)))

end Sample

end CyberstalkMe.Api
