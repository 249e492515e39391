import CyberstalkMe.Go.Filepath
import CyberstalkMe.Shared.Contract

/-! # Collecting the state of the device

One cycle of the collectors, as a function of what Windows answers. A collector whose call fails degrades to
a zero value.
-/
namespace CyberstalkMe.Collect

open Go Shared

/-! ### What Windows answers -/

/-- The fields of `SYSTEM_POWER_STATUS` that are read. -/
structure SystemPowerStatus where
  acLineStatus : UInt8
  batteryFlag : UInt8
  batteryLifePercent : UInt8
deriving DecidableEq, Repr

/-- The fields of `IP_ADAPTER_ADDRESSES` that are read. -/
structure Adapter where
  operStatus : UInt32
  ifType : UInt32
  gateway : Bool
deriving DecidableEq, Repr

/-- The answer to one call of `GetAdaptersAddresses`. -/
inductive AdaptersAddresses where
  | ok (adapters : List Adapter)
  | bufferOverflow
  | failed
deriving DecidableEq, Repr

/-- A foreground window. The image is missing when the process could not be identified. -/
structure Window where
  image : Option (List Char)
  title : String
deriving DecidableEq, Repr

/-- The answers of one cycle. A call that fails has none. -/
structure Desktop where
  lastInput : Option UInt32
  tickCount : UInt64
  power : Option SystemPowerStatus
  adapters : ℕ → AdaptersAddresses
  foreground : Option Window

/-! ### The collectors -/

structure Snapshot where
  process : String
  idleSeconds : ℤ
  battery : Option Battery
  network : String
  title : Option String
deriving DecidableEq, Repr

def unknownProcess : String := "?unknown"

def isLockScreenProcess (proc : String) : Bool := proc = "lockapp.exe" || proc = "logonui.exe"

/-- The tick count of the last input has 32 bits, and so has the difference. -/
def idleSeconds (d : Desktop) : ℤ :=
  match d.lastInput with
  | none => 0
  | some dwTime => ((d.tickCount.toUInt32 - dwTime) / 1000).toNat

def battery (d : Desktop) : Option Battery :=
  match d.power with
  | none => none
  | some status =>
    if status.batteryFlag &&& 128 ≠ 0 || status.batteryFlag = 255 || status.batteryLifePercent = 255 then none
    else some ⟨some status.batteryLifePercent.toNat, status.acLineStatus = 1⟩

def maxGetAdaptersAttempts : ℕ := 3

def getAdapters (answers : ℕ → AdaptersAddresses) : ℕ → Option (List Adapter)
  | 0 =>
    match answers maxGetAdaptersAttempts with
    | .ok adapters => some adapters
    | .bufferOverflow | .failed => none
  | left + 1 =>
    match answers (maxGetAdaptersAttempts - (left + 1)) with
    | .ok adapters => some adapters
    | .bufferOverflow => getAdapters answers left
    | .failed => none

def kindOf (a : Adapter) : Option (String × ℕ) :=
  if a.operStatus ≠ 1 || a.ifType = 24 then none
  else if !a.gateway then none
  else if a.ifType = 6 then some ("ethernet", 3)
  else if a.ifType = 71 then some ("wifi", 2)
  else if a.ifType = 243 || a.ifType = 244 then some ("cellular", 1)
  else none

/-- The loop over the adapters. The first of the highest rank is kept. -/
def bestNetwork (best : String × ℕ) : List Adapter → String × ℕ
  | [] => best
  | a :: rest =>
    match kindOf a with
    | none => bestNetwork best rest
    | some (kind, rank) => bestNetwork (if best.2 < rank then (kind, rank) else best) rest

def network (d : Desktop) : String :=
  match getAdapters d.adapters maxGetAdaptersAttempts with
  | none => ""
  | some adapters => (bestNetwork ("offline", 0) adapters).1

/-- Only the base name survives, in lower case. -/
def foregroundProcess (lower : Char → Char) (w : Window) : String :=
  match w.image with
  | none => unknownProcess
  | some path => toLower lower (String.ofList (Filepath.base path))

/-- The title is the getter's, which is missing where there is no window of a user. -/
def collect (lower : Char → Char) (d : Desktop) : Snapshot :=
  let snap : Snapshot := ⟨"", idleSeconds d, battery d, network d, none⟩
  match d.foreground with
  | none => snap
  | some w =>
    let proc := foregroundProcess lower w
    if isLockScreenProcess proc then snap else { snap with process := proc, title := some w.title }

/-! ### What is collected -/

/-- The idle time is right across the wrap of the 32-bit clock. -/
theorem idleSeconds_of_ticks {d : Desktop} {now last : ℕ} (hnow : d.tickCount = UInt64.ofNat now)
    (hlast : d.lastInput = some (UInt32.ofNat last)) (hle : last ≤ now) (hlt : now - last < 2 ^ 32) :
    idleSeconds d = ((now - last) / 1000 : ℕ) := by
  have hticks : d.tickCount.toUInt32.toNat = now % 2 ^ 32 := by
    rw [hnow, UInt64.toNat_toUInt32, UInt64.toNat_ofNat']
    exact Nat.mod_mod_of_dvd _ (by decide)
  have hdw : (UInt32.ofNat last).toNat = last % 2 ^ 32 := UInt32.toNat_ofNat'
  have helapsed : (d.tickCount.toUInt32 - UInt32.ofNat last).toNat = now - last := by
    rw [UInt32.toNat_sub, hticks, hdw]
    omega
  rw [idleSeconds, hlast]
  simp [UInt32.toNat_div, helapsed]

def networkOf : ℕ → String
  | 0 => "offline"
  | 1 => "cellular"
  | 2 => "wifi"
  | _ => "ethernet"

/-- The rank of an adapter, which is 0 when it is not connected. -/
def rankOf (a : Adapter) : ℕ := (kindOf a).elim 0 Prod.snd

theorem kindOf_eq_some {a : Adapter} {kind : String} {rank : ℕ} (h : kindOf a = some (kind, rank)) :
    kind = networkOf rank := by
  rw [kindOf] at h
  split_ifs at h <;> (cases h; rfl)

/-- The loop finds the highest rank. -/
theorem bestNetwork_eq (rank : ℕ) (adapters : List Adapter) :
    bestNetwork (networkOf rank, rank) adapters =
      (networkOf ((adapters.map rankOf).foldl max rank), (adapters.map rankOf).foldl max rank) := by
  induction adapters generalizing rank with
  | nil => rfl
  | cons a rest ih =>
    rw [bestNetwork, List.map_cons, List.foldl_cons, rankOf]
    cases hkind : kindOf a with
    | none => rw [Option.elim_none, max_eq_left (Nat.zero_le rank), ih]
    | some best =>
      obtain ⟨kind, r⟩ := best
      dsimp only [Option.elim_some]
      split_ifs with hlt
      · rw [kindOf_eq_some hkind, max_eq_right hlt.le, ih]
      · rw [max_eq_left (not_lt.mp hlt), ih]

/-- The order in which Windows lists the adapters makes no difference. -/
theorem bestNetwork_perm {as bs : List Adapter} (h : as.Perm bs) :
    bestNetwork ("offline", 0) as = bestNetwork ("offline", 0) bs := by
  have hmax : (as.map rankOf).foldl max 0 = (bs.map rankOf).foldl max 0 := (h.map rankOf).foldl_eq 0
  have has := bestNetwork_eq 0 as
  have hbs := bestNetwork_eq 0 bs
  rw [hmax] at has
  exact has.trans hbs.symm

end CyberstalkMe.Collect
