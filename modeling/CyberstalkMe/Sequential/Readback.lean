import CyberstalkMe.Sequential.System
import CyberstalkMe.Api.Snapshot
import CyberstalkMe.Go.Timestamps

/-! # What is stored can be read back

The state row of a device is the record of its last accepted report. Its
payload always decodes. Its timestamps are written as UTC text, which is read
back exactly when the UTC year has four digits; the server's clock has such
years, a client's `reported_at` near the ends of the range need not.
-/
namespace CyberstalkMe.Sequential

open Go Shared Store Foundations Api

/-- The accepted reports of a device, oldest first. -/
def reportsOf (d : String) (s : System) : List Observation := s.accepted.filter (·.id = d)

structure LastStored (d : String) (s : System) : Prop where
  row : s.srv.db.deviceState.lookup d = (reportsOf d s).getLast?.map Observation.record
  decodes : ∀ o ∈ reportsOf d s, unmarshal o.payloadJSON = some o.payload
  registered : reportsOf d s ≠ [] → (s.srv.db.devices.lookup d).isSome

/-- The device has not reported. -/
structure Unseen (d : String) (s : System) : Prop where
  state : s.srv.db.deviceState.lookup d = none
  accepted : ∀ o ∈ s.accepted, o.id ≠ d

theorem Unseen.reportsOf_eq_nil {d : String} {s : System} (h : Unseen d s) : reportsOf d s = [] := by
  rw [reportsOf, List.filter_eq_nil_iff]
  intro o ho
  simpa using h.accepted o ho

theorem Unseen.lastStored {d : String} {s : System} (h : Unseen d s) : LastStored d s := by
  have hnil := h.reportsOf_eq_nil
  exact ⟨by simp [hnil, h.state], by simp [hnil], by simp [hnil]⟩

theorem reportsOf_self {cfg : Config} {s : System} {d : String} {o : Observation} (hid : o.id = d)
    (faults : Faults) : reportsOf d (s.afterReport cfg o faults) = reportsOf d s ++ [o] := by
  simp [reportsOf, hid]

theorem reportsOf_other {cfg : Config} {s : System} {d : String} {o : Observation} (hid : o.id ≠ d)
    (faults : Faults) : reportsOf d (s.afterReport cfg o faults) = reportsOf d s := by
  simp [reportsOf, hid]

theorem lookup_self {cfg : Config} {s : System} {d : String} {o : Observation} (hid : o.id = d)
    (faults : Faults) :
    (s.afterReport cfg o faults).srv.db.deviceState.lookup d = some o.record := by
  simp [acceptReport, lookup_storeObservation, hid]

theorem lookup_other {cfg : Config} {s : System} {d : String} {o : Observation} (hid : o.id ≠ d)
    (faults : Faults) :
    (s.afterReport cfg o faults).srv.db.deviceState.lookup d = s.srv.db.deviceState.lookup d := by
  simp [acceptReport, lookup_storeObservation, creditReport, Ne.symm hid]

theorem LastStored.step {cfg : Config} {d : String} {s t : System} {a : Action} (h : LastStored d s)
    (hstep : step cfg s a = some t) : LastStored d t := by
  cases transition_of_step hstep with
  | tick | rejected | failed | scanFailed | scanned => exact ⟨h.row, h.decodes, h.registered⟩
  | register =>
    exact ⟨h.row, h.decodes, fun hne => isSome_devices_registerDevice (h.registered hne) _ _ _ _ _⟩
  | @accepted req faults o hprep _ =>
    by_cases hid : o.id = d
    · refine ⟨?_, ?_, fun _ => hid ▸ prepare_registered hprep⟩
      · rw [lookup_self hid, reportsOf_self hid, List.getLast?_concat]
        rfl
      · rw [reportsOf_self hid]
        intro o' ho'
        rcases List.mem_append.mp ho' with ho' | ho'
        · exact h.decodes o' ho'
        · rw [List.mem_singleton.mp ho']
          exact prepare_unmarshal hprep
    · refine ⟨?_, ?_, ?_⟩
      · rw [lookup_other hid, reportsOf_other hid, h.row]
      · rw [reportsOf_other hid]
        exact h.decodes
      · rw [reportsOf_other hid]
        exact h.registered

/-- The condition on a step: what an accepted report will store satisfies `P`. -/
def Accepts (P : Observation → Prop) (cfg : Config) (s : System) : Action → Prop
  | .report req faults => ∀ o, prepare cfg s.srv.db req s.clock faults.lookup = .ok o →
      faults.upsertState = false → P o
  | _ => True

theorem accepts_step {P : Observation → Prop} {cfg : Config} {s t : System} {a : Action}
    (h : ∀ o ∈ s.accepted, P o) (hguard : Accepts P cfg s a) (hstep : step cfg s a = some t) :
    ∀ o ∈ t.accepted, P o := by
  cases transition_of_step hstep with
  | tick | register | rejected | failed | scanFailed | scanned => exact h
  | @accepted req faults o hprep hfails =>
    intro o' ho'
    rcases List.mem_append.mp ho' with ho' | ho'
    · exact h o' ho'
    · rw [List.mem_singleton.mp ho']
      exact hguard o hprep hfails

/-! ### Reading the rows -/

/-- Both timestamps of the report can be read back. -/
def Readable (o : Observation) : Prop := o.seenAt.FourDigitYear ∧ o.reportedAt.FourDigitYear

instance : DecidablePred Readable := fun _ => inferInstanceAs (Decidable (_ ∧ _))

structure Shows (row : StateRow) (o : Observation) : Prop where
  deviceID : row.deviceID = o.id
  payload : row.payload = o.payload
  reportedAt : row.reportedAt = Time.ofSeconds o.reportedAt.seconds
  lastSeenAt : row.lastSeenAt = Time.ofSeconds o.seenAt.seconds

theorem decodeState_record {o : Observation} (hdec : unmarshal o.payloadJSON = some o.payload)
    (hread : Readable o) (d : DeviceRow) : ∃ row, decodeState o.id d o.record = .ok row ∧ Shows row o := by
  obtain ⟨hseen, hreported⟩ := hread
  have hok : decodeState o.id d o.record = .ok ⟨o.id, d.deviceName, d.deviceType, o.payload,
      Time.ofSeconds o.reportedAt.seconds, Time.ofSeconds o.seenAt.seconds⟩ :=
    decodeState_eq_ok.mpr ⟨_, _, _, hdec, Time.parse_format hreported.1 hreported.2,
      Time.parse_format hseen.1 hseen.2, rfl⟩
  exact ⟨_, hok, rfl, rfl, rfl, rfl⟩

/-- A row whose `reported_at` has another year cannot be decoded. -/
theorem decodeState_record_ne {o : Observation} (h : ¬ o.reportedAt.FourDigitYear) (d : DeviceRow)
    (row : StateRow) : decodeState o.id d o.record ≠ .ok row := by
  intro hok
  obtain ⟨p, reportedAt, lastSeenAt, -, hparse, -⟩ := decodeState_eq_ok.mp hok
  have hnone : Time.parse o.reportedAt.utc.format = none := by
    apply Time.parse_format_eq_none
    rw [Time.FourDigitYear] at h
    omega
  rw [Observation.record, hnone] at hparse
  cases hparse

/-- The rows of every device can be read, and show its last report. -/
structure ReadBack (db : DB) (reports : String → List Observation) : Prop where
  getState : ∀ d, (db.devices.lookup d).isSome → ∃ row, getState db d false = .ok row ∧
    ((reports d = [] ∧ row.lastSeenAt.isZero) ∨ ∃ o, (reports d).getLast? = some o ∧ Shows row o)
  listStates : ∃ rows, listStates db false = .ok rows ∧
    (∀ row ∈ rows, ∃ o, (reports row.deviceID).getLast? = some o ∧ Shows row o) ∧
    ∀ d o, (reports d).getLast? = some o → ∃ row ∈ rows, row.deviceID = d

theorem exists_forall₂ {α β : Type} {R : α → β → Prop} {l : List α} (h : ∀ a ∈ l, ∃ b, R a b) :
    ∃ bs, List.Forall₂ R l bs := by
  induction l with
  | nil => exact ⟨[], .nil⟩
  | cons a l ih =>
    obtain ⟨b, hb⟩ := h a List.mem_cons_self
    obtain ⟨bs, hbs⟩ := ih fun a' ha' => h a' (List.mem_cons_of_mem a ha')
    exact ⟨b :: bs, .cons hb hbs⟩

theorem readBack_of_lastStored {s : System} (h : ∀ d, LastStored d s)
    (hread : ∀ o ∈ s.accepted, Readable o) : ReadBack s.srv.db fun d => reportsOf d s := by
  have hlast : ∀ d o, (reportsOf d s).getLast? = some o →
      o.id = d ∧ unmarshal o.payloadJSON = some o.payload ∧ Readable o := by
    intro d o ho
    have hmem := List.mem_of_getLast? ho
    have hfilter := List.mem_filter.mp hmem
    exact ⟨of_decide_eq_true hfilter.2, (h d).decodes o hmem, hread o hfilter.1⟩
  -- a state row is the record of the last report, so it decodes
  have hdecode : ∀ d drow rec, s.srv.db.deviceState.lookup d = some rec →
      ∃ row o, (reportsOf d s).getLast? = some o ∧ decodeState d drow rec = .ok row ∧ Shows row o := by
    intro d drow rec hrec
    rw [(h d).row, Option.map_eq_some_iff] at hrec
    obtain ⟨o, ho, rfl⟩ := hrec
    obtain ⟨rfl, hdec, hreadable⟩ := hlast d o ho
    obtain ⟨row, hrow, hshows⟩ := decodeState_record hdec hreadable drow
    exact ⟨row, o, ho, hrow, hshows⟩
  constructor
  · intro d hdev
    obtain ⟨drow, hdrow⟩ := Option.isSome_iff_exists.mp hdev
    cases hrec : s.srv.db.deviceState.lookup d with
    | none =>
      refine ⟨_, getState_eq_ok.mpr ⟨rfl, drow, hdrow, .inl ⟨hrec, rfl⟩⟩, .inl ⟨?_, rfl⟩⟩
      rw [(h d).row, Option.map_eq_none_iff, List.getLast?_eq_none_iff] at hrec
      exact hrec
    | some rec =>
      obtain ⟨row, o, ho, hrow, hshows⟩ := hdecode d drow rec hrec
      exact ⟨row, getState_eq_ok.mpr ⟨rfl, drow, hdrow, .inr ⟨rec, hrec, hrow⟩⟩, .inr ⟨o, ho, hshows⟩⟩
  · obtain ⟨rows, hrows⟩ := exists_forall₂ (R := fun r row => decodeState r.1 r.2.1 r.2.2 = .ok row)
      (l := joinedStates s.srv.db) fun r hr => by
        obtain ⟨row, -, -, hrow, -⟩ := hdecode r.1 r.2.1 r.2.2 (mem_joinedStates.mp hr).2
        exact ⟨row, hrow⟩
    have hok := listStates_eq_ok.mpr ⟨rfl, hrows⟩
    refine ⟨rows, hok, fun row hrow => ?_, fun d o ho => ?_⟩
    · obtain ⟨drow, rec, -, hrec, hdec⟩ := (mem_listStates hok).mp hrow
      obtain ⟨row', o, ho, hrow', hshows⟩ := hdecode row.deviceID drow rec hrec
      cases hdec.symm.trans hrow'
      exact ⟨o, ho, hshows⟩
    · have hne : reportsOf d s ≠ [] := fun hnil => by
        rw [hnil] at ho
        cases ho
      obtain ⟨drow, hdrow⟩ := Option.isSome_iff_exists.mp ((h d).registered hne)
      have hrec : s.srv.db.deviceState.lookup d = some o.record := by
        rw [(h d).row, ho]
        rfl
      have hmem : d ∈ rows.map StateRow.deviceID := by
        rw [map_deviceID_listStates hok]
        exact List.mem_map.mpr ⟨(d, drow, o.record), mem_joinedStates.mpr ⟨hdrow, hrec⟩, rfl⟩
      obtain ⟨row, hrow, hid⟩ := List.mem_map.mp hmem
      exact ⟨row, hrow, hid⟩

/-- One unreadable row makes the read of its device and every listing fail. -/
theorem not_readable_of_storeObservation {db : DB} {o : Observation} (h : ¬ o.reportedAt.FourDigitYear)
    (hdev : (db.devices.lookup o.id).isSome) :
    (∀ row, getState (storeObservation db o) o.id false ≠ .ok row) ∧
      ∀ rows, listStates (storeObservation db o) false ≠ .ok rows := by
  have hrec : (storeObservation db o).deviceState.lookup o.id = some o.record := by
    rw [lookup_storeObservation, if_pos rfl]
  constructor
  · intro row hrow
    rcases getState_eq_ok.mp hrow with ⟨-, drow, -, ⟨hnone, -⟩ | ⟨rec, hrec', hdec⟩⟩
    · rw [hrec] at hnone
      cases hnone
    · cases hrec.symm.trans hrec'
      exact decodeState_record_ne h drow row hdec
  · intro rows hrows
    obtain ⟨drow, hdrow⟩ := Option.isSome_iff_exists.mp hdev
    have hmem : o.id ∈ rows.map StateRow.deviceID := by
      rw [map_deviceID_listStates hrows]
      exact List.mem_map.mpr ⟨(o.id, drow, o.record), mem_joinedStates.mpr ⟨hdrow, hrec⟩, rfl⟩
    obtain ⟨row, hrow, hid⟩ := List.mem_map.mp hmem
    obtain ⟨drow', rec, -, hrec', hdec⟩ := (mem_listStates hrows).mp hrow
    rw [hid] at hrec' hdec
    cases hrec.symm.trans hrec'
    exact decodeState_record_ne h drow' row hdec

/-- In every run in which the timestamps of the accepted reports have four-digit UTC years, every
device can be read and listed, with its last report; one accepted report whose `reported_at` has
another year ends that at once. -/
theorem stored_reports_read_back (cfg : Config) :
    (∀ s u as, (∀ d, Unseen d s) → Meets (step cfg) (Accepts Readable cfg) s as →
      execute (step cfg) s as = some u → ReadBack u.srv.db fun d => reportsOf d u) ∧
      ∀ (s : System) (req : Request) (faults : Faults) (o : Observation),
        prepare cfg s.srv.db req s.clock faults.lookup = .ok o → faults.upsertState = false → ¬ o.reportedAt.FourDigitYear →
        (∀ row, Store.getState (s.report cfg req faults).srv.db o.id false ≠ .ok row) ∧
          ∀ rows, Store.listStates (s.report cfg req faults).srv.db false ≠ .ok rows := by
  constructor
  · intro s u as hunseen hmeets hrun
    have hlast : ∀ d, LastStored d u := fun d =>
      execute_invariant_all (fun _ _ _ h hstep => h.step hstep) (hunseen d).lastStored hrun
    have hread : ∀ o ∈ u.accepted, Readable o := by
      apply execute_invariant (fun _ _ _ h hguard hstep => accepts_step h hguard hstep) _ hmeets hrun
      intro o ho
      exact absurd rfl ((hunseen o.id).accepted o ho)
    exact readBack_of_lastStored hlast hread
  · intro s req faults o hprep hfails hyear
    have hreport : (s.report cfg req faults).srv = acceptReport cfg s.srv o faults := by
      rcases report_cases cfg s.srv req s.clock faults with
        ⟨resp, hprep', -, -⟩ | ⟨o', hprep', ⟨hfails', -⟩ | ⟨-, hout⟩⟩
      · rw [hprep] at hprep'
        cases hprep'
      · rw [hfails] at hfails'
        cases hfails'
      · cases hprep.symm.trans hprep'
        rw [System.report, hout]
    rw [hreport]
    exact not_readable_of_storeObservation hyear (prepare_registered hprep)

theorem accepts_report {P : Observation → Prop} [DecidablePred P] {cfg : Config} {s : System}
    {req : Request} {faults : Faults}
    (h : (prepare cfg s.srv.db req s.clock faults.lookup).toOption.all fun o => decide (P o)) :
    Accepts P cfg s (.report req faults) := by
  intro o ho _
  rw [ho] at h
  exact of_decide_eq_true h

namespace Sample
open Api.Sample

/-- 9999-12-31T23:59:59-01:00, an hour after which the UTC year is 10000. -/
def lastLocalHour : Time := ⟨315537901199000000000, -3600⟩

def emptyStart : System := System.start .empty (clock 0)

def registerThenReport (reportedAt : Time) : List Action :=
  [.register "d1" "PC" "windows" (hashToken "tok-1"),
    .report (request "Code" "writing" reportedAt) .none]

/-- The state after `registerThenReport`. -/
def reported (reportedAt : Time) : System :=
  (System.start db (clock 0)).report config (request "Code" "writing" reportedAt) .none

theorem unseen_emptyStart (d : String) : Unseen d emptyStart := ⟨rfl, fun _ h => (nomatch h)⟩

end Sample

open Api.Sample Sample in
theorem stored_reports_read_back_sample :
    ReadBack (reported (clock (-5))).srv.db fun d => reportsOf d (reported (clock (-5))) := by
  have hmeets : Meets (step config) (Accepts Readable config) emptyStart
      (registerThenReport (clock (-5))) :=
    meets_cons rfl trivial (meets_cons rfl (accepts_report (by decide +kernel)) trivial)
  have hrun : execute (step config) emptyStart (registerThenReport (clock (-5))) =
      some (reported (clock (-5))) := rfl
  exact (stored_reports_read_back config).1 emptyStart _ _ unseen_emptyStart hmeets hrun

open Api.Sample Sample in
/-- The report is accepted, and then neither its device nor the listing can be read. -/
theorem report_of_year_10000_unreadable :
    Time.parse "9999-12-31T23:59:59-01:00" = some lastLocalHour ∧
      execute (step config) emptyStart (registerThenReport lastLocalHour) =
        some (reported lastLocalHour) ∧
      (reported lastLocalHour).accepted.length = 1 ∧
      (Store.getState (reported lastLocalHour).srv.db "d1" false).toOption = none ∧
      (Store.listStates (reported lastLocalHour).srv.db false).toOption = none := by
  exact ⟨by decide +kernel, rfl, by decide +kernel, by decide +kernel, by decide +kernel⟩

end CyberstalkMe.Sequential
