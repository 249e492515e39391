import CyberstalkMe.Go.Duration
import CyberstalkMe.Shared.Contract

/-! # The report loop

The agent sends its latest state, waits and sends again. What a wait is depends
on the answers since the last success only.
-/
namespace CyberstalkMe.Report

open Go Shared

/-! ### Sending -/

/-- What becomes of a request: it is not built, it gets no answer, or it has the status of one. -/
inductive Attempt where
  | notEncoded (err : String)
  | notBuilt (err : String)
  | noAnswer (err : String)
  | answered (status : ℕ)
deriving DecidableEq, Repr

/-- An error of `Send`, and whether it wraps `ErrPermanent`. -/
structure SendError where
  permanent : Bool
  message : String
deriving DecidableEq, Repr

def errPermanent : String := "permanent report error: fix the config and restart"

/-- `Client.Send`. -/
def send : Attempt → Except SendError Unit
  | .notEncoded err => .error ⟨false, "encode report: " ++ err⟩
  | .notBuilt err => .error ⟨false, "build request: " ++ err⟩
  | .noAnswer err => .error ⟨false, "report: " ++ err⟩
  | .answered status =>
    if status = 204 then .ok ()
    else if status = 400 ∨ status = 401 then
      .error ⟨true, errPermanent ++ ": server status " ++ toString status⟩
    else if 500 ≤ status then .error ⟨false, "report: server status " ++ toString status⟩
    else .error ⟨true, errPermanent ++ ": unexpected server status " ++ toString status⟩

/-! ### Waiting -/

def maxBackoff : Duration := ⟨120000000000, by decide, by decide⟩

/-- `period * 2`, which wraps. -/
def doubled (period : Duration) : Duration where
  nanos := (period.nanos * 2).bmod (2 ^ 64)
  lower := by
    have := Int.le_bmod (x := period.nanos * 2) (m := 2 ^ 64) (by decide)
    omega
  upper := by
    have := Int.bmod_lt (x := period.nanos * 2) (m := 2 ^ 64) (by decide)
    omega

/-- The doubled period, at most `maxBackoff` and never below the interval. -/
def nextBackoff (interval period : Duration) : Duration :=
  let d := doubled period
  let d := if maxBackoff.nanos < d.nanos then maxBackoff else d
  if d.nanos < interval.nanos then interval else d

def capBackoff (interval : Duration) : Duration :=
  if maxBackoff.nanos < interval.nanos then interval else maxBackoff

def backoff (interval period : Duration) : Except SendError Unit → Duration × Duration
  | .ok () => (interval, interval)
  | .error err =>
    if err.permanent then (capBackoff interval, capBackoff interval)
    else (period, nextBackoff interval period)

/-! ### The loop -/

/-- What one round meets: the error of its context, the payload of `Next`, the clock, the answer, and
the error of the sleep that ends it. -/
structure Round where
  cancelled : Option String
  payload : ReportPayload
  now : Time
  attempt : ReportPayload → Attempt
  sleepErr : Option String

/-- What one round did. -/
structure Sent where
  payload : ReportPayload
  result : Except SendError Unit
  wait : Duration

/-- What the loop did in its rounds so far, and the error that ended it. -/
structure Trace where
  sent : List Sent
  err : Option String

def loop (interval : Duration) : Duration → List Round → Trace
  | _, [] => ⟨[], none⟩
  | period, r :: rs =>
    match r.cancelled with
    | some err => ⟨[], some err⟩
    | none =>
      let p := { r.payload with reportedAt := r.now.utc }
      let result := send (r.attempt p)
      let (wait, period) := backoff interval period result
      match r.sleepErr with
      | some err => ⟨[⟨p, result, wait⟩], some err⟩
      | none =>
        let rest := loop interval period rs
        ⟨⟨p, result, wait⟩ :: rest.sent, rest.err⟩

/-- `Loop.Run`. -/
def run (interval : Duration) (rounds : List Round) : Trace := loop interval interval rounds

/-! ### The period after a history of answers -/

def Failed (result : Except SendError Unit) : Prop := result ≠ .ok ()

def Permanent (result : Except SendError Unit) : Prop := ∃ err, result = .error err ∧ err.permanent

def Retryable (result : Except SendError Unit) : Prop := ∃ err, result = .error err ∧ ¬ err.permanent

instance (result : Except SendError Unit) : Decidable (Permanent result) :=
  match result with
  | .ok () => isFalse (by simp [Permanent])
  | .error err => decidable_of_iff (err.permanent = true) (by simp [Permanent])

/-- The longest wait: the cap on retries, or the interval where that is longer. -/
def ceiling (interval : Duration) : ℤ := max interval.nanos maxBackoff.nanos

/-- The wait of the failure that follows `n` retryable ones. -/
def closedForm (interval : Duration) (n : ℕ) : ℤ :=
  max interval.nanos (min maxBackoff.nanos (interval.nanos * 2 ^ n))

/-- The failures since the last success, for results with the latest first. -/
def sinceSuccess (history : List (Except SendError Unit)) : List (Except SendError Unit) :=
  history.takeWhile fun result => !result.isOk

def periodAfter (interval : Duration) (history : List (Except SendError Unit)) : ℤ :=
  if ∃ result ∈ sinceSuccess history, Permanent result then ceiling interval
  else closedForm interval (sinceSuccess history).length

def waitAfter (interval : Duration) (history : List (Except SendError Unit)) (result : Except SendError Unit) : ℤ :=
  match result with
  | .ok () => interval.nanos
  | .error err => if err.permanent then ceiling interval else periodAfter interval history

/-! ### One round -/

section Step
variable {interval period : Duration}

theorem doubled_nanos (h : 0 ≤ period.nanos) :
    (doubled period).nanos =
      if period.nanos < 2 ^ 62 then 2 * period.nanos else 2 * period.nanos - 2 ^ 64 := by
  have hupper := period.upper
  simp only [doubled, Int.bmod]
  split_ifs <;> omega

@[simp] theorem capBackoff_nanos : (capBackoff interval).nanos = ceiling interval := by
  simp only [capBackoff, ceiling]
  split_ifs <;> omega

/-- Where the multiplication wraps, the interval is the longest wait. -/
theorem nextBackoff_nanos (hinterval : 0 < interval.nanos) (hlow : 0 ≤ period.nanos)
    (hhigh : period.nanos ≤ ceiling interval) :
    (nextBackoff interval period).nanos = max interval.nanos (min maxBackoff.nanos (2 * period.nanos)) := by
  have hdoubled := doubled_nanos hlow
  have hcap : maxBackoff.nanos = 120000000000 := rfl
  have hupper := interval.upper
  have hupper' := period.upper
  simp only [ceiling] at hhigh
  simp only [nextBackoff]
  split_ifs at hdoubled ⊢ <;> omega

theorem closedForm_zero : closedForm interval 0 = interval.nanos := by
  simp [closedForm]

theorem closedForm_succ (h : 0 < interval.nanos) (n : ℕ) :
    closedForm interval (n + 1) = max interval.nanos (min maxBackoff.nanos (2 * closedForm interval n)) := by
  have hpow : interval.nanos * 2 ^ (n + 1) = 2 * (interval.nanos * 2 ^ n) := by ring
  have hle : interval.nanos ≤ interval.nanos * 2 ^ n := le_mul_of_one_le_right h.le (one_le_pow₀ one_le_two)
  simp only [closedForm, hpow]
  omega

theorem closedForm_le_ceiling (n : ℕ) : closedForm interval n ≤ ceiling interval := by
  simp only [closedForm, ceiling]
  omega

theorem periodAfter_bounds (interval : Duration) (history : List (Except SendError Unit)) :
    interval.nanos ≤ periodAfter interval history ∧ periodAfter interval history ≤ ceiling interval := by
  simp only [periodAfter]
  split_ifs
  · exact ⟨le_max_left _ _, le_rfl⟩
  · exact ⟨le_max_left _ _, closedForm_le_ceiling _⟩

@[simp] theorem sinceSuccess_ok (u : Unit) (history : List (Except SendError Unit)) :
    sinceSuccess (.ok u :: history) = [] := rfl

@[simp] theorem sinceSuccess_error (err : SendError) (history : List (Except SendError Unit)) :
    sinceSuccess (.error err :: history) = .error err :: sinceSuccess history := rfl

@[simp] theorem permanent_error {err : SendError} : Permanent (.error err) ↔ err.permanent := by
  simp [Permanent]

theorem periodAfter_ok (u : Unit) (history : List (Except SendError Unit)) :
    periodAfter interval (.ok u :: history) = interval.nanos := by
  simp [periodAfter, closedForm_zero]

theorem periodAfter_permanent {err : SendError} (h : err.permanent) (history : List (Except SendError Unit)) :
    periodAfter interval (.error err :: history) = ceiling interval := by
  simp [periodAfter, h]

theorem periodAfter_retryable (hinterval : 0 < interval.nanos) {err : SendError} (h : ¬ err.permanent)
    (history : List (Except SendError Unit)) :
    periodAfter interval (.error err :: history) =
      max interval.nanos (min maxBackoff.nanos (2 * periodAfter interval history)) := by
  simp only [periodAfter, sinceSuccess_error, List.exists_mem_cons_iff, permanent_error, h, false_or,
    Bool.false_eq_true, List.length_cons]
  split_ifs
  · have hcap : maxBackoff.nanos = 120000000000 := rfl
    simp only [ceiling]
    omega
  · exact closedForm_succ hinterval _

/-- One round waits as long as the results so far demand, and leaves the period for the next failure. -/
theorem backoff_spec (hinterval : 0 < interval.nanos) {history : List (Except SendError Unit)}
    (hperiod : period.nanos = periodAfter interval history) (result : Except SendError Unit) :
    (backoff interval period result).1.nanos = waitAfter interval history result ∧
      (backoff interval period result).2.nanos = periodAfter interval (result :: history) := by
  have hbounds := periodAfter_bounds interval history
  cases result with
  | ok u => exact ⟨rfl, (periodAfter_ok u history).symm⟩
  | error err =>
    by_cases hpermanent : err.permanent
    · simp [backoff, waitAfter, hpermanent, periodAfter_permanent hpermanent]
    · simp only [backoff, waitAfter, if_neg hpermanent]
      rw [nextBackoff_nanos hinterval (by omega) (by omega), periodAfter_retryable hinterval hpermanent, hperiod]
      exact ⟨rfl, rfl⟩

end Step

/-! ### Every run -/

theorem loop_wait {interval period : Duration} (hinterval : 0 < interval.nanos)
    {history : List (Except SendError Unit)} (hperiod : period.nanos = periodAfter interval history)
    {rounds : List Round} {before after : List Sent} {s : Sent}
    (h : (loop interval period rounds).sent = before ++ s :: after) :
    s.wait.nanos = waitAfter interval ((before.map Sent.result).reverse ++ history) s.result := by
  induction rounds generalizing period history before with
  | nil => simp [loop] at h
  | cons r rounds ih =>
    rw [loop] at h
    cases hcancelled : r.cancelled with
    | some err => simp [hcancelled] at h
    | none =>
      simp only [hcancelled] at h
      obtain ⟨hwait, hnext⟩ := backoff_spec hinterval hperiod
        (send (r.attempt { r.payload with reportedAt := r.now.utc }))
      cases hsleep : r.sleepErr with
      | some err =>
        simp only [hsleep] at h
        cases before with
        | nil =>
          cases h
          exact hwait
        | cons b before => simp at h
      | none =>
        simp only [hsleep] at h
        cases before with
        | nil =>
          cases h
          exact hwait
        | cons b before =>
          rw [List.cons_append, List.cons.injEq] at h
          obtain ⟨rfl, h⟩ := h
          rw [ih hnext h]
          simp

/-- The wait of a failure is the one of a longest wait when a permanent failure came before it, without a
success in between. -/
theorem waitAfter_ceiling {interval : Duration} {history : List (Except SendError Unit)} {result : Except SendError Unit}
    (hfailed : Failed result) (hpermanent : ∃ err ∈ sinceSuccess history, Permanent err) :
    waitAfter interval history result = ceiling interval := by
  cases result with
  | ok u => exact absurd rfl hfailed
  | error err => simp [waitAfter, periodAfter, hpermanent]

theorem isOk_eq_false {result : Except SendError Unit} : result.isOk = false ↔ Failed result := by
  cases result <;> simp [Failed, Except.isOk, Except.toBool]

theorem Retryable.failed {result : Except SendError Unit} (h : Retryable result) : Failed result := by
  obtain ⟨err, rfl, -⟩ := h
  simp [Failed]

theorem sinceSuccess_append {failures history : List (Except SendError Unit)} (h : ∀ result ∈ failures, Failed result) :
    sinceSuccess (failures ++ history) = failures ++ sinceSuccess history := by
  apply List.takeWhile_append_of_pos
  intro result hresult
  rw [isOk_eq_false.mpr (h result hresult), Bool.not_false]

theorem waitAfter_bounds {interval : Duration} (history : List (Except SendError Unit)) (result : Except SendError Unit) :
    interval.nanos ≤ waitAfter interval history result ∧ waitAfter interval history result ≤ ceiling interval := by
  cases result with
  | ok u => exact ⟨le_rfl, le_max_left _ _⟩
  | error err =>
    simp only [waitAfter]
    split_ifs
    · exact ⟨le_max_left _ _, le_rfl⟩
    · exact periodAfter_bounds interval history

theorem waitAfter_closedForm {interval : Duration} {failures history : List (Except SendError Unit)}
    {result : Except SendError Unit} (hresult : Retryable result) (hfailures : ∀ t ∈ failures, Retryable t)
    (hhistory : sinceSuccess history = []) :
    waitAfter interval (failures ++ history) result = closedForm interval failures.length := by
  obtain ⟨err, rfl, herr⟩ := hresult
  have hsince : sinceSuccess (failures ++ history) = failures := by
    rw [sinceSuccess_append fun t ht => (hfailures t ht).failed, hhistory, List.append_nil]
  have hnone : ¬ ∃ t ∈ failures, Permanent t := by
    rintro ⟨t, ht, err', rfl, herr'⟩
    obtain ⟨err, heq, herr⟩ := hfailures _ ht
    cases heq
    exact herr herr'
  simp only [waitAfter, if_neg herr, periodAfter, hsince, if_neg hnone]

/-- Every wait of every run: within its bounds, the interval after a success, the longest wait after a
permanent failure until the next success, and otherwise doubled with each failure. -/
theorem run_waits (interval : Duration) (hinterval : 0 < interval.nanos) (rounds : List Round)
    (before after : List Sent) (s : Sent) (h : (run interval rounds).sent = before ++ s :: after) :
    (interval.nanos ≤ s.wait.nanos ∧ s.wait.nanos ≤ max interval.nanos maxBackoff.nanos) ∧
      (s.result = .ok () → s.wait = interval) ∧
      (Permanent s.result → s.wait.nanos = max interval.nanos maxBackoff.nanos) ∧
      (∀ earlier p since, before = earlier ++ p :: since → Permanent p.result →
        (∀ t ∈ since, Failed t.result) → Failed s.result →
          s.wait.nanos = max interval.nanos maxBackoff.nanos) ∧
      (∀ earlier since, before = earlier ++ since → (∀ t ∈ earlier.getLast?, t.result = .ok ()) →
        (∀ t ∈ since, Retryable t.result) → Retryable s.result →
          s.wait.nanos = max interval.nanos (min maxBackoff.nanos (interval.nanos * 2 ^ since.length))) := by
  have hstart : interval.nanos = periodAfter interval [] := closedForm_zero.symm
  have hwait := loop_wait hinterval hstart h
  rw [List.append_nil] at hwait
  refine ⟨?_, ?_, ?_, ?_, ?_⟩
  · rw [hwait]
    exact waitAfter_bounds _ _
  · intro hok
    ext
    rw [hwait, hok]
    rfl
  · rintro ⟨err, herr, hpermanent⟩
    rw [hwait, herr]
    simp [waitAfter, hpermanent, ceiling]
  · rintro earlier p since rfl hpermanent hsince hfailed
    rw [hwait]
    apply waitAfter_ceiling hfailed
    obtain ⟨err, herr, -⟩ := id hpermanent
    refine ⟨p.result, ?_, hpermanent⟩
    rw [List.map_append, List.map_cons, List.reverse_append, List.reverse_cons, List.append_assoc,
      sinceSuccess_append (by simpa using hsince), herr]
    simp
  · rintro earlier since rfl hearlier hsince hretryable
    rw [hwait, List.map_append, List.reverse_append, waitAfter_closedForm hretryable]
    · simp [closedForm]
    · simpa using hsince
    · cases earlier using List.reverseRecOn with
      | nil => rfl
      | append_singleton earlier t =>
        have hok : t.result = .ok () := hearlier t (by simp)
        simp [hok]

/-- Two retries, a success, a permanent failure and a retry after it. -/
def sampleStatuses : List ℕ := [500, 503, 204, 401, 500]

def sampleRounds : List Round := sampleStatuses.map fun status =>
  { cancelled := none, payload := default, now := Time.ofSeconds 0, attempt := fun _ => .answered status, sleepErr := none }

def fifteenSeconds : Duration := ⟨15000000000, by decide, by decide⟩

/-- The wait after the send number `i`. -/
def sampleWait (i : ℕ) : Option ℤ := (run fifteenSeconds sampleRounds).sent[i]?.map fun s => s.wait.nanos

theorem sent_sampleRounds : (run fifteenSeconds sampleRounds).sent.map Sent.result =
    sampleStatuses.map fun status => send (.answered status) := rfl

/-- The second retry waits twice the interval, and the retry after the permanent failure the longest wait. -/
theorem run_waits_sample : sampleWait 1 = some 30000000000 ∧ sampleWait 4 = some 120000000000 := by
  have hwaits := run_waits fifteenSeconds (by decide) sampleRounds
  have hresults := sent_sampleRounds
  rw [sampleWait, sampleWait]
  generalize (run fifteenSeconds sampleRounds).sent = sent at hwaits hresults
  simp only [sampleStatuses, List.map_cons, List.map_nil, List.map_eq_cons_iff, List.map_eq_nil_iff] at hresults
  obtain ⟨first, -, rfl, h1, second, -, rfl, h2, third, -, rfl, -, fourth, -, rfl, h4, fifth, -, rfl, h5, rfl⟩ := hresults
  have hfirst : Retryable first.result := ⟨_, h1, by simp⟩
  have hsecond : Retryable second.result := ⟨_, h2, by simp⟩
  have hfourth : Permanent fourth.result := ⟨_, h4, rfl⟩
  have hfifth : Failed fifth.result := by simp [Failed, h5, send]
  obtain ⟨-, -, -, -, hdouble⟩ := hwaits [first] [third, fourth, fifth] second rfl
  obtain ⟨-, -, -, hlongest, -⟩ := hwaits [first, second, third, fourth] [] fifth rfl
  have h := hdouble [] [first] rfl (by simp) (by simp [hfirst]) hsecond
  have h' := hlongest [first, second, third] fourth [] rfl hfourth (by simp) hfifth
  simp only [List.getElem?_cons_succ, List.getElem?_cons_zero, Option.map_some, h, h', List.length_singleton]
  decide

end CyberstalkMe.Report
