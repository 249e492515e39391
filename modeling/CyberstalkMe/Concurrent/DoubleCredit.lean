import CyberstalkMe.Concurrent.Records
import CyberstalkMe.Api.Crediting

/-! # Credited once

A report credits the time since the row it has read, in a statement of its own.
While a device's reports take turns (a credit starts from the current row, none
is pending, and the row is not overwritten by an older report) its usage rows add
up to no more than the time between its first and its latest report.
-/
namespace CyberstalkMe.Concurrent

open Go Shared Store Usage Foundations Api

def secondsOf (d : String) (db : DB) : ℤ := db.usageBucket.total fun k => k.deviceID = d

/-- The report of a handler whose usage is added and whose state is not stored yet. -/
def Handler.pendingReport : Handler → Option Observation
  | .credited o added => if added = [] then none else some o
  | _ => none

theorem Handler.mem_pendingReport {h : Handler} {o : Observation} :
    o ∈ h.pendingReport ↔ ∃ added, h = .credited o added ∧ added ≠ [] := by
  cases h with
  | credited o' added =>
    by_cases hnil : added = []
    · simp [pendingReport, hnil]
    · simp [pendingReport, hnil, eq_comm]
  | idle | checked | stamped | observed | stored | marked | done | answered => simp [pendingReport]

def Process.crediting (cfg : Config) (s : Process) :
    Action → Option (Observation × Except StoreError StateRow)
  | .handler i _ =>
    match s.handlers i with
    | .observed o prev => if usageDeltas cfg prev o.seenAt = [] then none else some (o, prev)
    | _ => none
  | _ => none

def Process.failing (s : Process) : Action → Option Observation
  | .handler i faults =>
    match s.handlers i with
    | .credited o _ => if faults.upsertState then some o else none
    | _ => none
  | _ => none

def Accepted (d : String) (s : Process) (a : Action) : Prop := ∀ o ∈ s.failing a, o.id ≠ d

def CreditsFromRow (cfg : Config) (d : String) (s : Process) (a : Action) : Prop :=
  ∀ c ∈ s.crediting cfg a, c.1.id = d →
    c.2.toOption.map StateRow.lastSeenAt = s.srv.db.lastSeenAt d

def CreditsAlone (cfg : Config) (d : String) (s : Process) (a : Action) (other : Handler) : Prop :=
  ∀ c ∈ s.crediting cfg a, c.1.id = d → ∀ o' ∈ other.pendingReport, o'.id ≠ d

/-- The condition on a step. The reports of the device take turns in crediting and storing. -/
def TakesTurns (cfg : Config) (d : String) (s : Process) (a : Action) : Prop :=
  CreditsFromRow cfg d s a ∧ ∀ j, CreditsAlone cfg d s a (s.handlers j) ∧ StoresAfter d s a (s.handlers j)

/-- The first `last_seen_at` of the device: the one in its row at the start, or else that of the first
report that was stored. -/
def FirstSeen (db : DB) (d : String) (t₀ : Time) (s : Process) : Prop :=
  db.lastSeen d = some t₀.utc.format ∨
    db.lastSeen d = none ∧ ((s.stores.filter (ofDevice d)).head?.map Observation.seenAt = some t₀)

/-! ### What a handler's step does to a device's usage -/

theorem Advance.credit_cases {cfg : Config} {srv srv' : Server} {now : Time} {faults : Faults}
    {h h' : Handler} (hadvance : Advance cfg srv now faults h srv' h') (d : String) :
    (secondsOf d srv'.db = secondsOf d srv.db ∧ ∀ o ∈ h'.pendingReport, o.id ≠ d) ∨
      ∃ o row added, h = .observed o (.ok row) ∧ h' = .credited o added ∧ o.id = d ∧ added ≠ [] ∧
        usageDeltas cfg (.ok row) o.seenAt ≠ [] ∧
        secondsOf d srv'.db = secondsOf d srv.db + (o.seenAt.seconds - row.lastSeenAt.seconds) := by
  cases hadvance with
  | arrived =>
    refine .inl ⟨rfl, fun o ho => ?_⟩
    obtain ⟨added, hcredited, -⟩ := Handler.mem_pendingReport.mp ho
    have hnone := congrArg Handler.observation hcredited
    rw [observation_accept] at hnone
    cases hnone
  | unstamped | stamped | observed | failed | stored | marked | done =>
    exact .inl ⟨rfl, fun o ho => nomatch ho⟩
  | credited hadded =>
    rename_i o prev added
    by_cases hid : o.id = d
    · by_cases hnil : added = []
      · subst hnil
        exact .inl ⟨rfl, fun o ho => nomatch ho⟩
      · have hdeltas : added = usageDeltas cfg prev o.seenAt := by
          rw [hadded]
          apply if_neg
          intro hstop
          exact hnil (hadded.trans (if_pos hstop))
        cases prev with
        | error e => exact absurd hdeltas hnil
        | ok row =>
          have hcredits : Credits cfg row o.seenAt := by
            by_contra hnot
            exact hnil (hdeltas.trans (usageDeltas_eq_nil.mpr hnot))
          refine .inr ⟨o, row, added, rfl, rfl, hid, hnil, hdeltas ▸ hnil, ?_⟩
          have htotal := total_foldl_addDelta o.id added srv.db.usageBucket fun k => k.deviceID = o.id
          rw [hdeltas, sum_usageDeltas, if_pos hcredits] at htotal
          subst hdeltas
          subst hid
          exact htotal
    · refine .inl ⟨?_, fun o' ho' => ?_⟩
      · exact total_foldl_addDelta_ne hid added srv.db.usageBucket (fun k => k.deviceID = d) fun _ hk => hk
      · obtain ⟨added', hcredited, -⟩ := Handler.mem_pendingReport.mp ho'
        cases hcredited
        exact hid

/-! ### What has been credited -/

/-- The device's seconds reach from `first` to `high` at most. What is credited lies before the instant
in the row, or before that of a report whose credit is pending. -/
structure CreditedTo (d : String) (base first high : ℤ) (s : Process) : Prop where
  seconds_le : secondsOf d s.srv.db ≤ base + (high - first)
  covered : (∀ t : Time, s.srv.db.lastSeen d = some t.utc.format → high ≤ t.seconds) ∨
    ∃ o, (∃ i, o ∈ (s.handlers i).pendingReport) ∧ o.id = d ∧ high ≤ o.seenAt.seconds
  reached : high = first ∨
    ∃ o, (∃ i, (s.handlers i).observation = some o) ∧ o.id = d ∧ o.seenAt.seconds = high

structure Unreported (d : String) (base : ℤ) (db : DB) (s : Process) : Prop where
  row : db.lastSeen d = none
  stores : latest (ofDevice d) s.stores = none
  seconds : secondsOf d s.srv.db = base
  pending : ∀ o, (∃ i, o ∈ (s.handlers i).pendingReport) → o.id ≠ d

/-- The invariant of the runs in which the device's reports take turns. -/
structure Balanced (d : String) (base : ℤ) (db : DB) (clock : Time) (s : Process) : Prop where
  records : Stores db clock s
  credited : Unreported d base db s ∨
    ∃ t₀ high, FirstSeen db d t₀ s ∧ CreditedTo d base t₀.seconds high s

section Step
variable {cfg : Config} {d : String} {base : ℤ} {db : DB} {clock t₀ : Time} {s t : Process}

theorem FirstSeen.exists_lastSeen (h : FirstSeen db d t₀ s) (hs : Stores db clock s) :
    ∃ t : Time, s.srv.db.lastSeen d = some t.utc.format := by
  rw [hs.lastSeen_eq]
  cases hlast : latest (ofDevice d) s.stores with
  | some o => exact ⟨o.seenAt, rfl⟩
  | none =>
    rcases h with hrow | ⟨-, hhead⟩
    · exact ⟨t₀, hrow⟩
    · rw [latest, List.getLast?_eq_none_iff] at hlast
      rw [hlast] at hhead
      cases hhead

theorem FirstSeen.append (h : FirstSeen db d t₀ s) {more : List Observation}
    (hstores : t.stores = s.stores ++ more) : FirstSeen db d t₀ t := by
  rcases h with hrow | ⟨hnone, hhead⟩
  · exact .inl hrow
  · refine .inr ⟨hnone, ?_⟩
    rw [hstores, List.filter_append]
    cases hfilter : s.stores.filter (ofDevice d) with
    | nil =>
      rw [hfilter] at hhead
      cases hhead
    | cons o os =>
      rw [hfilter] at hhead
      exact hhead

theorem FirstSeen.seconds_eq {t₁ : Time} (h : FirstSeen db d t₀ s) (h₁ : FirstSeen db d t₁ s) :
    t₀.seconds = t₁.seconds := by
  rcases h with hrow | ⟨hnone, hhead⟩
  · rcases h₁ with hrow₁ | ⟨hnone₁, -⟩
    · have htext := hrow.symm.trans hrow₁
      rwa [Option.some.injEq, Time.format_utc_inj] at htext
    · rw [hrow] at hnone₁
      cases hnone₁
  · rcases h₁ with hrow₁ | ⟨-, hhead₁⟩
    · rw [hnone] at hrow₁
      cases hrow₁
    · rw [Option.some.inj (hhead.symm.trans hhead₁)]

namespace CreditedTo
variable {first high : ℤ}

theorem frame (hs : CreditedTo d base first high s) {i : ℕ} {h h' : Handler} {srv' : Server}
    (hi : s.handlers i = h) (hpending : ∀ o ∈ h.pendingReport, o.id = d → o ∈ h'.pendingReport)
    (hobservation : ∀ o, h.observation = some o → o.id = d → h'.observation = some o)
    (hseconds : secondsOf d srv'.db = secondsOf d s.srv.db)
    (hrow : srv'.db.lastSeen d = s.srv.db.lastSeen d) :
    CreditedTo d base first high (s.advance i srv' h') where
  seconds_le := by
    rw [Process.srv_advance, hseconds]
    exact hs.seconds_le
  covered := by
    rw [Process.srv_advance, hrow]
    refine hs.covered.imp_right fun ⟨o, hpend, hid, hle⟩ => ⟨o, ?_, hid, hle⟩
    exact (Process.exists_advance (P := fun h => o ∈ h.pendingReport)
      fun ho => hpending o (hi ▸ ho) hid).mpr (.inr hpend)
  reached := by
    refine hs.reached.imp_right fun ⟨o, hobs, hid, heq⟩ => ⟨o, ?_, hid, heq⟩
    exact (Process.exists_advance (P := fun h => h.observation = some o)
      fun ho => hobservation o (hi ▸ ho) hid).mpr (.inr hobs)

theorem credit (hs : CreditedTo d base first high s) {i : ℕ} {o : Observation} {row : StateRow}
    {added : List UsageDelta} {srv' : Server} (hid : o.id = d) (hne : added ≠ [])
    (hrow : ∃ t : Time, s.srv.db.lastSeen d = some t.utc.format)
    (hfrom : s.srv.db.lastSeenAt d = some row.lastSeenAt)
    (halone : ∀ j, ∀ o' ∈ (s.handlers j).pendingReport, o'.id ≠ d)
    (hseconds : secondsOf d srv'.db = secondsOf d s.srv.db + (o.seenAt.seconds - row.lastSeenAt.seconds)) :
    CreditedTo d base first o.seenAt.seconds (s.advance i srv' (.credited o added)) where
  seconds_le := by
    obtain ⟨t, ht⟩ := hrow
    have hstart : row.lastSeenAt.seconds = t.seconds := by
      rw [DB.lastSeenAt, ht, Option.bind_some] at hfrom
      rw [Time.eq_of_parse_format hfrom, Time.ofSeconds_seconds]
    have hle : high ≤ t.seconds := by
      rcases hs.covered with hcovered | ⟨o', ⟨j, hj⟩, hid', -⟩
      · exact hcovered t ht
      · exact absurd hid' (halone j o' hj)
    have htotal := hs.seconds_le
    rw [Process.srv_advance, hseconds]
    omega
  covered := by
    refine .inr ⟨o, ⟨i, ?_⟩, hid, le_refl _⟩
    rw [Process.handlers_advance, Function.update_self]
    exact Handler.mem_pendingReport.mpr ⟨added, rfl, hne⟩
  reached := by
    refine .inr ⟨o, ⟨i, ?_⟩, hid, rfl⟩
    rw [Process.handlers_advance, Function.update_self]
    rfl

theorem store (hs : CreditedTo d base first high s) {i : ℕ} {o : Observation} {added : List UsageDelta}
    {srv' : Server} (hi : s.handlers i = .credited o added) (hid : o.id = d)
    (hdb : srv'.db = storeObservation s.srv.db o)
    (hlater : ∃ t : Time, s.srv.db.lastSeen d = some t.utc.format ∧ t.seconds ≤ o.seenAt.seconds) :
    CreditedTo d base first high (s.advance i srv' (.stored o)) where
  seconds_le := by
    rw [Process.srv_advance, hdb]
    exact hs.seconds_le
  covered := by
    have hnew : high ≤ o.seenAt.seconds → ∀ t : Time,
        srv'.db.lastSeen d = some t.utc.format → high ≤ t.seconds := by
      intro hle t ht
      rw [hdb, lastSeen_storeObservation, if_pos hid.symm, Option.some.injEq, Time.format_utc_inj] at ht
      exact ht ▸ hle
    rcases hs.covered with hcovered | ⟨o', ⟨j, hj⟩, hid', hle⟩
    · obtain ⟨t, ht, hle⟩ := hlater
      exact .inl (hnew ((hcovered t ht).trans hle))
    · by_cases hji : j = i
      · subst hji
        obtain ⟨added', hcredited, -⟩ := Handler.mem_pendingReport.mp hj
        cases hi.symm.trans hcredited
        exact .inl (hnew hle)
      · refine .inr ⟨o', ⟨j, ?_⟩, hid', hle⟩
        rw [Process.handlers_advance, Function.update_of_ne hji]
        exact hj
  reached := by
    refine hs.reached.imp_right fun ⟨o', hobs, hid', heq⟩ => ⟨o', ?_, hid', heq⟩
    refine (Process.exists_advance (P := fun h => h.observation = some o') fun ho => ?_).mpr (.inr hobs)
    rw [hi] at ho
    exact ho

end CreditedTo

theorem Advance.keeps {faults : Faults} {i : ℕ} {h h' : Handler} {srv' : Server}
    (hadvance : Advance cfg s.srv s.clock faults h srv' h') (hi : s.handlers i = h)
    (haccepted : Accepted d s (.handler i faults)) {o : Observation} (ho : h.observation = some o)
    (hid : o.id = d) : h'.observation = some o := by
  cases hadvance with
  | arrived | unstamped | stamped => cases ho
  | observed | credited | stored | marked | done => exact ho
  | failed hfails =>
    cases ho
    have hfailing : o ∈ s.failing (.handler i faults) := by
      rw [Process.failing, hi, hfails]
      rfl
    exact absurd hid (haccepted o hfailing)

/-- A pending credit of the device ends with its upsert. -/
theorem Advance.pending {faults : Faults} {i : ℕ} {h h' : Handler} {srv' : Server}
    (hadvance : Advance cfg s.srv s.clock faults h srv' h') (hi : s.handlers i = h)
    (haccepted : Accepted d s (.handler i faults)) (hstored : h'.justStored = []) :
    ∀ o ∈ h.pendingReport, o.id ≠ d := by
  intro o ho hid
  obtain ⟨added, rfl, -⟩ := Handler.mem_pendingReport.mp ho
  have hkept := hadvance.keeps hi haccepted rfl hid
  cases hadvance with
  | failed => cases hkept
  | stored => cases hstored

theorem Unreported.frame (hs : Unreported d base db s) {i : ℕ} {h' : Handler} {srv' : Server}
    (hstored : ∀ o ∈ h'.justStored, o.id ≠ d) (hpending : ∀ o ∈ h'.pendingReport, o.id ≠ d)
    (hseconds : secondsOf d srv'.db = secondsOf d s.srv.db) : Unreported d base db (s.advance i srv' h') where
  row := hs.row
  stores := by
    rw [Process.stores_advance, latest_append, hs.stores, Option.or_none, latest_eq_none]
    exact fun o ho hd => hstored o ho (ofDevice_iff.mp hd)
  seconds := hseconds.trans hs.seconds
  pending o := by
    rintro ⟨j, hj⟩
    rw [Process.handlers_advance] at hj
    by_cases hji : j = i
    · rw [hji, Function.update_self] at hj
      exact hpending o hj
    · rw [Function.update_of_ne hji] at hj
      exact hs.pending o ⟨j, hj⟩

/-- The row holds no later instant than a report that takes its turn. -/
theorem lastSeen_le_of_storesAfter (hs : Stores db clock s)
    (hpast : ∀ t : Time, db.lastSeen d = some t.utc.format → t.seconds ≤ clock.seconds)
    {a : Action} {o : Observation} (hstoring : o ∈ s.storing a) (hid : o.id = d)
    (hclock : clock.nanos ≤ o.seenAt.nanos) (hafter : ∀ j, StoresAfter d s a (s.handlers j)) {t : Time}
    (ht : s.srv.db.lastSeen d = some t.utc.format) : t.seconds ≤ o.seenAt.seconds := by
  rw [hs.lastSeen_eq] at ht
  cases hlast : latest (ofDevice d) s.stores with
  | none =>
    rw [hlast] at ht
    exact (hpast t ht).trans (Time.seconds_mono hclock)
  | some o' =>
    rw [hlast, Option.map_some, Option.some_or, Option.some.injEq, Time.format_utc_inj] at ht
    obtain ⟨hmem, hd⟩ := mem_of_latest hlast
    obtain ⟨j, hj⟩ := (hs.mem o').mp hmem
    have hseen : SeenBy o' o := hafter j o hstoring hid o' hj (ofDevice_iff.mp hd)
    exact ht ▸ Time.seconds_mono hseen

theorem Unreported.store (hs : Unreported d base db s) {i : ℕ} {o : Observation} {srv' : Server}
    (hid : o.id = d) (hseconds : secondsOf d srv'.db = secondsOf d s.srv.db)
    (hdb : srv'.db = storeObservation s.srv.db o) :
    FirstSeen db d o.seenAt (s.advance i srv' (.stored o)) ∧
      CreditedTo d base o.seenAt.seconds o.seenAt.seconds (s.advance i srv' (.stored o)) := by
  constructor
  · refine .inr ⟨hs.row, ?_⟩
    have hnil : s.stores.filter (ofDevice d) = [] :=
      List.filter_eq_nil_iff.mpr (latest_eq_none.mp hs.stores)
    rw [Process.stores_advance, Handler.justStored, List.filter_append, hnil, List.filter_cons,
      if_pos (ofDevice_iff.mpr hid)]
    rfl
  · refine ⟨?_, .inl fun t ht => ?_, .inl rfl⟩
    · rw [Process.srv_advance, hseconds, hs.seconds]
      omega
    · rw [Process.srv_advance, hdb, lastSeen_storeObservation, if_pos hid.symm, Option.some.injEq,
        Time.format_utc_inj] at ht
      exact ht.le

namespace Balanced

theorem frame (hs : Balanced d base db clock s) {i : ℕ} {faults : Faults} {h h' : Handler}
    {srv' : Server} (hi : s.handlers i = h) (hadvance : Advance cfg s.srv s.clock faults h srv' h')
    (hstored : ∀ o ∈ h'.justStored, o.id ≠ d) (hpending : ∀ o ∈ h.pendingReport, o.id ≠ d)
    (hpending' : ∀ o ∈ h'.pendingReport, o.id ≠ d)
    (hobservation : ∀ o, h.observation = some o → o.id = d → h'.observation = some o)
    (hseconds : secondsOf d srv'.db = secondsOf d s.srv.db)
    (hrow : srv'.db.lastSeen d = s.srv.db.lastSeen d) : Balanced d base db clock (s.advance i srv' h') where
  records := hs.records.advance hi hadvance
  credited := by
    rcases hs.credited with hunreported | ⟨t₀, high, hfirst, hcredited⟩
    · exact .inl (hunreported.frame hstored hpending' hseconds)
    · exact .inr ⟨t₀, high, hfirst.append rfl,
        hcredited.frame hi (fun o ho hid => absurd hid (hpending o ho)) hobservation hseconds hrow⟩

theorem store (hs : Balanced d base db clock s)
    (hpast : ∀ t : Time, db.lastSeen d = some t.utc.format → t.seconds ≤ clock.seconds) {i : ℕ}
    {faults : Faults} {o : Observation} {added : List UsageDelta} {srv' : Server}
    (hi : s.handlers i = .credited o added)
    (hadvance : Advance cfg s.srv s.clock faults (.credited o added) srv' (.stored o))
    (hfails : faults.upsertState = false) (hid : o.id = d)
    (hafter : ∀ j, StoresAfter d s (.handler i faults) (s.handlers j))
    (hseconds : secondsOf d srv'.db = secondsOf d s.srv.db)
    (hdb : srv'.db = storeObservation s.srv.db o) :
    Balanced d base db clock (s.advance i srv' (.stored o)) where
  records := hs.records.advance hi hadvance
  credited := by
    rcases hs.credited with hunreported | ⟨t₀, high, hfirst, hcredited⟩
    · exact .inr ⟨o.seenAt, o.seenAt.seconds, hunreported.store hid hseconds hdb⟩
    · have hstoring : o ∈ s.storing (.handler i faults) := by
        rw [Process.storing, hi, hfails]
        rfl
      have hclock : clock.nanos ≤ o.seenAt.nanos :=
        hs.records.since i o (congrArg Handler.observation hi)
      obtain ⟨t, ht⟩ := hfirst.exists_lastSeen hs.records
      have hle := lastSeen_le_of_storesAfter hs.records hpast hstoring hid hclock hafter ht
      exact .inr ⟨t₀, high, hfirst.append rfl, hcredited.store hi hid hdb ⟨t, ht, hle⟩⟩

theorem credit (hs : Balanced d base db clock s) {i : ℕ} {faults : Faults} {o : Observation}
    {row : StateRow} {added : List UsageDelta} {srv' : Server} (hi : s.handlers i = .observed o (.ok row))
    (hadvance : Advance cfg s.srv s.clock faults (.observed o (.ok row)) srv' (.credited o added))
    (hid : o.id = d) (hne : added ≠ []) (hdeltas : usageDeltas cfg (.ok row) o.seenAt ≠ [])
    (hturn : TakesTurns cfg d s (.handler i faults))
    (hseconds : secondsOf d srv'.db = secondsOf d s.srv.db + (o.seenAt.seconds - row.lastSeenAt.seconds)) :
    Balanced d base db clock (s.advance i srv' (.credited o added)) where
  records := hs.records.advance hi hadvance
  credited := by
    have hcrediting : (o, .ok row) ∈ s.crediting cfg (.handler i faults) := by
      rw [Process.crediting, hi]
      exact if_neg hdeltas
    have hfrom : s.srv.db.lastSeenAt d = some row.lastSeenAt := (hturn.1 _ hcrediting hid).symm
    rcases hs.credited with hunreported | ⟨t₀, high, hfirst, hcredited⟩
    · -- without a row there is nothing to credit from
      rw [DB.lastSeenAt, hs.records.lastSeen_eq, hunreported.stores, hunreported.row] at hfrom
      cases hfrom
    · exact .inr ⟨t₀, o.seenAt.seconds, hfirst.append rfl,
        hcredited.credit hid hne (hfirst.exists_lastSeen hs.records) hfrom
          (fun j => (hturn.2 j).1 _ hcrediting hid) hseconds⟩

theorem advance (hs : Balanced d base db clock s)
    (hpast : ∀ t : Time, db.lastSeen d = some t.utc.format → t.seconds ≤ clock.seconds) {i : ℕ}
    {faults : Faults} {h h' : Handler} {srv' : Server} (hi : s.handlers i = h)
    (hadvance : Advance cfg s.srv s.clock faults h srv' h')
    (haccepted : Accepted d s (.handler i faults)) (hturn : TakesTurns cfg d s (.handler i faults)) :
    Balanced d base db clock (s.advance i srv' h') := by
  rcases hadvance.credit_cases d with
    ⟨hseconds, hpending'⟩ | ⟨o, row, added, rfl, rfl, hid, hne, hdeltas, hseconds⟩
  · rcases hadvance.deviceState with ⟨hstate, hstored⟩ | ⟨o, added, rfl, rfl, hdb, hfails⟩
    · have hrow : srv'.db.lastSeen d = s.srv.db.lastSeen d := by rw [DB.lastSeen, hstate, DB.lastSeen]
      have hnone : ∀ o ∈ h'.justStored, o.id ≠ d := by
        rw [hstored]
        exact List.forall_mem_nil _
      exact hs.frame hi hadvance hnone (hadvance.pending hi haccepted hstored) hpending'
        (fun o ho hid => hadvance.keeps hi haccepted ho hid) hseconds hrow
    · by_cases hid : o.id = d
      · exact hs.store hpast hi hadvance hfails hid (fun j => (hturn.2 j).2) hseconds hdb
      · have hrow : srv'.db.lastSeen d = s.srv.db.lastSeen d := by
          rw [hdb, lastSeen_storeObservation, if_neg (Ne.symm hid)]
        refine hs.frame hi hadvance ?_ ?_ hpending' (fun o' ho' hid' => ?_) hseconds hrow
        · exact fun o' ho' => List.mem_singleton.mp ho' ▸ hid
        · intro o' ho'
          obtain ⟨added', hcredited, -⟩ := Handler.mem_pendingReport.mp ho'
          cases hcredited
          exact hid
        · exact ho'
  · exact hs.credit hi hadvance hid hne hdeltas hturn hseconds

theorem other (hs : Balanced d base db clock s) (hrecords : Stores db clock t)
    (hhandlers : t.handlers = s.handlers) (hstores : t.stores = s.stores)
    (husage : t.srv.db.usageBucket = s.srv.db.usageBucket)
    (hstate : t.srv.db.deviceState = s.srv.db.deviceState) : Balanced d base db clock t where
  records := hrecords
  credited := by
    have hseconds : secondsOf d t.srv.db = secondsOf d s.srv.db := by rw [secondsOf, husage, secondsOf]
    have hrow : t.srv.db.lastSeen d = s.srv.db.lastSeen d := by rw [DB.lastSeen, hstate, DB.lastSeen]
    rcases hs.credited with hunreported | ⟨t₀, high, hfirst, hcredited⟩
    · exact .inl ⟨hunreported.row, hstores ▸ hunreported.stores, hseconds.trans hunreported.seconds,
        hhandlers ▸ hunreported.pending⟩
    · refine .inr ⟨t₀, high, hfirst.append (hstores.trans (List.append_nil _).symm), ?_, ?_, ?_⟩
      · exact hseconds ▸ hcredited.seconds_le
      · exact hrow ▸ hhandlers ▸ hcredited.covered
      · exact hhandlers ▸ hcredited.reached

theorem step (hs : Balanced d base db clock s)
    (hpast : ∀ t : Time, db.lastSeen d = some t.utc.format → t.seconds ≤ clock.seconds) {a : Action}
    (haccepted : Accepted d s a) (hturn : TakesTurns cfg d s a) (h : step cfg s a = some t) :
    Balanced d base db clock t := by
  have hrecords := hs.records.step h
  cases transition_of_step h with
  | tick | register => exact hs.other hrecords rfl rfl rfl rfl
  | request hi hadvance =>
    rename_i i req faults h'
    -- an idle handler neither credits nor stores
    have hfailing : s.failing (.handler i faults) = none := by rw [Process.failing, hi]
    have hcrediting : s.crediting cfg (.handler i faults) = none := by rw [Process.crediting, hi]
    have hstoring : s.storing (.handler i faults) = none := by rw [Process.storing, hi]
    refine hs.advance hpast hi hadvance (fun o ho => ?_) ⟨fun c hc => ?_, fun j => ⟨fun c hc => ?_, fun o ho => ?_⟩⟩
    · rw [hfailing] at ho
      cases ho
    · rw [hcrediting] at hc
      cases hc
    · rw [hcrediting] at hc
      cases hc
    · rw [hstoring] at ho
      cases ho
  | handler hi hadvance => exact hs.advance hpast hi hadvance haccepted hturn
  | scanner hsc hsweep =>
    have hdb := hsweep.db_eq
    exact hs.other hrecords rfl rfl (congrArg DB.usageBucket hdb) (congrArg DB.deviceState hdb)

/-- The credited seconds fit between the first instant and the latest report. -/
theorem seconds_le (hs : Balanced d base db clock s) {tN : Time} (hfirst : FirstSeen db d t₀ s)
    (hle : t₀.nanos ≤ tN.nanos)
    (hlatest : ∀ i o, (s.handlers i).observation = some o → o.id = d → o.seenAt.nanos ≤ tN.nanos) :
    secondsOf d s.srv.db ≤ base + (tN.seconds - t₀.seconds) := by
  rcases hs.credited with hunreported | ⟨t₁, high, hfirst₁, hcredited⟩
  · obtain ⟨t, ht⟩ := hfirst.exists_lastSeen hs.records
    rw [hs.records.lastSeen_eq, hunreported.stores, hunreported.row] at ht
    cases ht
  · have heq := hfirst.seconds_eq hfirst₁
    have htotal := hcredited.seconds_le
    have hhigh : high ≤ tN.seconds := by
      rcases hcredited.reached with hfirst | ⟨o, ⟨i, hi⟩, hid, hseen⟩
      · rw [hfirst, ← heq]
        exact Time.seconds_mono hle
      · rw [← hseen]
        exact Time.seconds_mono (hlatest i o hi hid)
    omega

end Balanced

theorem balanced_start (d : String) (db : DB) (clock : Time)
    (hrow : db.lastSeen d = none ∨ ∃ t : Time, db.lastSeen d = some t.utc.format) :
    Balanced d (secondsOf d db) db clock (.start db clock) where
  records := stores_start db clock
  credited := by
    rcases hrow with hnone | ⟨t, ht⟩
    · exact .inl ⟨hnone, rfl, rfl, fun o ho => nomatch ho.choose_spec⟩
    · refine .inr ⟨t, t.seconds, .inl ht, ?_, .inl fun t' ht' => ?_, .inl rfl⟩
      · change secondsOf d db ≤ secondsOf d db + (t.seconds - t.seconds)
        omega
      · have htext := ht.symm.trans ht'
        rw [Option.some.injEq, Time.format_utc_inj] at htext
        exact htext.le

end Step

/-- In every interleaving in which the reports of a device are accepted and take turns, the seconds
stored for it in the run do not exceed the time from its first instant to any that is no earlier than
its reports; before the first instant nothing is stored. -/
theorem credited_within_reported_time (d : String) (cfg : Config) (db : DB) (clock : Time)
    (as : List Action) (u : Process)
    (hpast : ∀ t : Time, db.lastSeen d = some t.utc.format → t.seconds ≤ clock.seconds)
    (haccepted : Meets (step cfg) (Accepted d) (.start db clock) as)
    (hturns : Meets (step cfg) (TakesTurns cfg d) (.start db clock) as)
    (hrun : execute (step cfg) (.start db clock) as = some u) :
    (∀ t₀ tN : Time, FirstSeen db d t₀ u → t₀.nanos ≤ tN.nanos →
        (∀ i o, (u.handlers i).observation = some o → o.id = d → o.seenAt.nanos ≤ tN.nanos) →
        secondsOf d u.srv.db ≤ secondsOf d db + (tN.seconds - t₀.seconds)) ∧
      (db.lastSeen d = none → (∀ o ∈ u.stores, o.id ≠ d) → secondsOf d u.srv.db = secondsOf d db) := by
  have hbalanced : (db.lastSeen d = none ∨ ∃ t : Time, db.lastSeen d = some t.utc.format) →
      Balanced d (secondsOf d db) db clock u := by
    intro hrow
    refine execute_invariant (fun _ _ _ h hguard hstep => h.step hpast hguard.1 hguard.2 hstep)
      (balanced_start d db clock hrow) (meets_and.mpr ⟨haccepted, hturns⟩) hrun
  constructor
  · intro t₀ tN hfirst hle hlatest
    have hrow : db.lastSeen d = none ∨ ∃ t : Time, db.lastSeen d = some t.utc.format :=
      hfirst.symm.imp And.left fun h => ⟨t₀, h⟩
    exact (hbalanced hrow).seconds_le hfirst hle hlatest
  · intro hnone hstores
    have hempty : latest (ofDevice d) u.stores = none :=
      latest_eq_none.mpr fun o ho hd => hstores o ho (ofDevice_iff.mp hd)
    rcases (hbalanced (.inl hnone)).credited with hunreported | ⟨t₀, high, hfirst, -⟩
    · exact hunreported.seconds
    · obtain ⟨t, ht⟩ := hfirst.exists_lastSeen (hbalanced (.inl hnone)).records
      rw [(hbalanced (.inl hnone)).records.lastSeen_eq, hempty, hnone] at ht
      cases ht

instance (d : String) (s : Process) (a : Action) : Decidable (Accepted d s a) :=
  inferInstanceAs (Decidable (∀ o ∈ s.failing a, _))

instance (cfg : Config) (d : String) (s : Process) (a : Action) : Decidable (CreditsFromRow cfg d s a) :=
  inferInstanceAs (Decidable (∀ c ∈ s.crediting cfg a, _))

instance (cfg : Config) (d : String) (s : Process) (a : Action) (other : Handler) :
    Decidable (CreditsAlone cfg d s a other) :=
  inferInstanceAs (Decidable (∀ c ∈ s.crediting cfg a, _))

theorem takesTurns_of_within {cfg : Config} {d : String} (n : ℕ) {s : Process} {as : List Action}
    (hs : Within n s) (hrow : Meets (step cfg) (CreditsFromRow cfg d) s as)
    (h : Meets (step cfg) (fun s a => a.within n ∧ ∀ j < n, CreditsAlone cfg d s a (s.handlers j) ∧
      StoresAfter d s a (s.handlers j)) s as) : Meets (step cfg) (TakesTurns cfg d) s as :=
  meets_and.mpr ⟨hrow, meets_of_within
    (P := fun s a h => CreditsAlone cfg d s a h ∧ StoresAfter d s a h)
    (fun _ _ => ⟨fun _ _ _ _ h => (nomatch h), fun _ _ _ _ h => (nomatch h)⟩) n hs h⟩

namespace Sample
open Api.Sample

def threeReports : List Action :=
  arrive 0 "Code" "writing" ++ steps 0 5 ++ .tick (clock 10) :: arrive 1 "Code" "writing" ++
    .tick (clock 20) :: arrive 2 "Mail" "reading"

end Sample

open Api.Sample Sample in
theorem credited_within_reported_time_sample :
    ∃ u, execute (step config) start (threeReports ++ steps 1 3 ++ steps 2 5 ++ steps 1 2) = some u ∧
      ∀ t₀ tN : Time, FirstSeen db "d1" t₀ u → t₀.nanos ≤ tN.nanos →
        (∀ i o, (u.handlers i).observation = some o → o.id = "d1" → o.seenAt.nanos ≤ tN.nanos) →
        secondsOf "d1" u.srv.db ≤ secondsOf "d1" db + (tN.seconds - t₀.seconds) := by
  have haccepted : Meets (step config) (Accepted "d1") start
      (threeReports ++ steps 1 3 ++ steps 2 5 ++ steps 1 2) := by
    decide +kernel
  have hturns : Meets (step config) (TakesTurns config "d1") start
      (threeReports ++ steps 1 3 ++ steps 2 5 ++ steps 1 2) :=
    takesTurns_of_within 3 (within_start db (clock 0) 3) (by decide +kernel) (by decide +kernel)
  have hrun : (execute (step config) start (threeReports ++ steps 1 3 ++ steps 2 5 ++ steps 1 2)).isSome := by
    decide +kernel
  obtain ⟨u, hu⟩ := Option.isSome_iff_exists.mp hrun
  exact ⟨u, hu, (credited_within_reported_time "d1" config db (clock 0) _ u (fun _ h => nomatch h)
    haccepted hturns hu).1⟩

open Api.Sample Sample in
/-- Both reports read the row of 12:00:00 before either credits: thirty seconds are stored for the
twenty from the first report to the latest. -/
theorem interval_credited_twice :
    ∃ u, execute (step config) start
        (threeReports ++ steps 1 1 ++ steps 2 1 ++ steps 1 4 ++ steps 2 4) = some u ∧
      FirstSeen db "d1" (clock 0) u ∧ u.clock = clock 20 ∧
      (∀ i : ℕ, i < 3 → (u.handlers i).doneReport.map (fun o => o.seenAt) = some (clock (10 * i))) ∧
      secondsOf "d1" db = 0 ∧ secondsOf "d1" u.srv.db = 30 := by
  have hrun : (execute (step config) start
      (threeReports ++ steps 1 1 ++ steps 2 1 ++ steps 1 4 ++ steps 2 4)).any (fun u => decide
        ((db.lastSeen "d1" = none ∧
            (u.stores.filter (ofDevice "d1")).head?.map Observation.seenAt = some (clock 0)) ∧
          u.clock = clock 20 ∧
          (∀ i : ℕ, i < 3 → (u.handlers i).doneReport.map (fun o => o.seenAt) = some (clock (10 * i))) ∧
          secondsOf "d1" db = 0 ∧ secondsOf "d1" u.srv.db = 30)) = true := by
    decide +kernel
  obtain ⟨u, hu, hend⟩ := (Option.any_eq_true _ _).mp hrun
  obtain ⟨hfirst, hrest⟩ := of_decide_eq_true hend
  exact ⟨u, hu, .inr hfirst, hrest⟩

end CyberstalkMe.Concurrent
