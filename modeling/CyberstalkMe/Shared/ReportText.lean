import CyberstalkMe.Go.ParsedTime
import CyberstalkMe.Go.Unmarshal
import CyberstalkMe.Shared.Text

/-! # The text of a report

What the agent writes into the body of a report, what the server decodes of any text, and the text under
which an accepted report is kept.
-/
namespace CyberstalkMe.Shared

open Go Foundations Json JsonText

/-! ### Decoding -/

def activityFields : List (String × Decoder Activity) :=
  [("app", intoString.into Activity.app fun a app => { a with app }),
   ("description", intoString.into Activity.description fun a description => { a with description }),
   ("idle", intoBool.into Activity.idle fun a idle => { a with idle }),
   ("idle_seconds", intoInt.into Activity.idleSeconds fun a idleSeconds => { a with idleSeconds }),
   ("locked", intoBool.into Activity.locked fun a locked => { a with locked })]

def intoActivity : Decoder Activity := intoStruct activityFields

def batteryFields : List (String × Decoder Battery) :=
  [("level", (intoPointer 0 intoInt).into Battery.level fun b level => { b with level }),
   ("charging", intoBool.into Battery.charging fun b charging => { b with charging })]

def intoBattery : Decoder Battery := intoStruct batteryFields

def reportFields : List (String × Decoder ReportPayload) :=
  [("device_id", intoString.into ReportPayload.deviceID fun p deviceID => { p with deviceID }),
   ("device_name", intoString.into ReportPayload.deviceName fun p deviceName => { p with deviceName }),
   ("device_type", intoString.into ReportPayload.deviceType fun p deviceType => { p with deviceType }),
   ("activity", intoActivity.into ReportPayload.activity fun p activity => { p with activity }),
   ("battery", (intoPointer default intoBattery).into ReportPayload.battery fun p battery => { p with battery }),
   ("network", (intoPointer "" intoString).into ReportPayload.network fun p network => { p with network }),
   ("reported_at", intoTime.into ReportPayload.reportedAt fun p reportedAt => { p with reportedAt })]

def intoReport : Decoder ReportPayload := intoStruct reportFields

def decodeReport (body : List Char) : Option ReportPayload := decodeFirst intoReport default body

/-- The column of the latest report, read by the store. -/
def readReport (column : List Char) : Option ReportPayload := unmarshalText intoReport default column

/-! ### Encoding -/

def ReportPayload.json (p : ReportPayload) : Json ℤ :=
  .object
    [("device_id", .string p.deviceID),
     ("device_name", .string p.deviceName),
     ("device_type", .string p.deviceType),
     ("activity", p.activity.json),
     ("battery", .ofOption Battery.json p.battery),
     ("network", .ofOption .string p.network),
     ("reported_at", ofTime p.reportedAt)]

/-- `json.Marshal` of a report. -/
def encodeReport (p : ReportPayload) : Option (List Char) :=
  if marshals p.reportedAt then some (text p.json) else none

/-- A body with unknown members, one in another case, and one that is overwritten. -/
example : decodeReport
    "\x7b\"v\":[1e9,null],\"Device_ID\":\"win\",\"battery\":\x7b\"level\":7\x7d,\"battery\":\x7b\"charging\":true\x7d\x7d tail".toList =
      some { (default : ReportPayload) with deviceID := "win", battery := some ⟨some 7, true⟩ } := by
  decide +kernel

/-! ### The text of a time -/

def isTimeChar (c : Char) : Bool := c.isDigit || c ∈ ['-', '+', ':', '.', 'T', 'Z']

/-- The characters of a time stand for themselves in a string. -/
theorem writeChar_timeChar {c : Char} (h : isTimeChar c = true) : writeChar escapeHTML c = [c] := by
  have hascii : ∀ n < 0x80, isTimeChar (Char.ofNat n) = true →
      writeChar escapeHTML (Char.ofNat n) = [Char.ofNat n] := by decide +kernel
  have hsmall : c.toNat < 0x80 := by
    simp only [isTimeChar, Bool.or_eq_true, decide_eq_true_eq, Char.isDigit_iff_toNat] at h
    rcases h with ⟨-, hle⟩ | hmem
    · exact hle.trans_lt (by decide)
    · have hall : ∀ c ∈ ['-', '+', ':', '.', 'T', 'Z'], c.toNat < 0x80 := by simp
      exact hall c hmem
  have hplain := hascii c.toNat hsmall
  rw [Char.ofNat_toNat] at hplain
  exact hplain h

theorem isTimeChar_padded (width n : ℕ) : ∀ c ∈ padded width n, isTimeChar c = true := by
  intro c hc
  simp [isTimeChar, isDigit_of_mem_padded hc]

theorem isTimeChar_formatNano (t : Time) : ∀ c ∈ t.formatNano.toList, isTimeChar c = true := by
  have hpadded := isTimeChar_padded
  have hliteral : isTimeChar '-' = true ∧ isTimeChar '+' = true ∧ isTimeChar ':' = true ∧ isTimeChar '.' = true ∧
      isTimeChar 'T' = true ∧ isTimeChar 'Z' = true := by decide
  have hsign : ∀ c ∈ (if t.year < 0 then ['-'] else []), isTimeChar c = true := by
    split_ifs <;> simp [hliteral]
  have hfraction : ∀ c ∈ Time.fractionText t.nanosecond, isTimeChar c = true := by
    rw [Time.fractionText]
    split_ifs
    · simp
    · rw [List.forall_mem_cons]
      exact ⟨hliteral.2.2.2.1, fun c hc => hpadded _ _ c ((List.rdropWhile_prefix _ _).subset hc)⟩
  have hzone : ∀ c ∈ Time.zoneText t.offset, isTimeChar c = true := by
    rw [Time.zoneText]
    dsimp only
    split_ifs <;> simp only [List.forall_mem_append, List.forall_mem_cons, hliteral, true_and]
    · simp
    · exact ⟨hpadded _ _, hpadded _ _⟩
    · exact ⟨hpadded _ _, hpadded _ _⟩
  have hclock : ∀ c ∈ Time.clockText t.secondOfDay, isTimeChar c = true := by
    simp only [Time.clockText, List.forall_mem_append, List.forall_mem_cons, hliteral, true_and]
    exact ⟨⟨hpadded _ _, hpadded _ _⟩, hpadded _ _⟩
  simp only [Time.formatNano, String.toList_ofList, Time.appendInt, List.forall_mem_append, List.forall_mem_cons,
    hliteral, true_and]
  exact ⟨⟨⟨⟨⟨⟨hsign, hpadded _ _⟩, hpadded _ _⟩, hpadded _ _⟩, hclock⟩, hfraction⟩, hzone⟩

/-- A text of plain characters is written as it is. -/
theorem writeChars_formatNano (t : Time) : writeChars escapeHTML t.formatNano = t.formatNano.toList := by
  have hall := isTimeChar_formatNano t
  rw [writeChars]
  generalize t.formatNano.toList = cs at hall
  induction cs with
  | nil => rfl
  | cons c cs ih =>
    rw [List.forall_mem_cons] at hall
    rw [List.flatMap_cons, writeChar_timeChar hall.1, ih hall.2, List.singleton_append]

/-! ### The integers of a report -/

/-- They are integers of Go. -/
structure ReportPayload.InRange (p : ReportPayload) : Prop where
  idleSeconds : isInt64 p.activity.idleSeconds
  level : ∀ b ∈ p.battery, ∀ n ∈ b.level, isInt64 n

/-! ### What is written is decoded -/

/-- The body of a string as it is written. -/
def written (s : String) : String := String.ofList (writeChars escapeHTML s)

@[simp] theorem unquote_written (s : String) : unquote (written s).toList = some s := by
  rw [written, String.toList_ofList]
  exact unquote_writeChars (fun _ => escapeHTML_lt) s

theorem intoInt_ofInt {n : ℤ} (h : isInt64 n) (old : ℤ) : intoInt (.number (Numeral.ofInt n)) old = some n := by
  simp [intoInt, Option.filter, h]

theorem intoActivity_written {a : Activity} (h : isInt64 a.idleSeconds) (old : Activity) :
    intoActivity (a.json.mapText written Numeral.ofInt) old = some a := by
  simp [intoActivity, Activity.json, mapText, mapTextMembers, intoStruct, intoMember, fieldOf, activityFields,
    Decoder.into, intoString, intoBool, intoInt_ofInt h]

theorem intoBattery_written {b : Battery} (h : ∀ n ∈ b.level, isInt64 n) (old : Battery) :
    intoBattery (b.json.mapText written Numeral.ofInt) old = some b := by
  obtain ⟨level, charging⟩ := b
  cases level with
  | none =>
    simp [intoBattery, Battery.json, mapText, mapTextMembers, intoStruct, intoMember, fieldOf, batteryFields,
      Decoder.into, intoBool, intoPointer, ofOption]
  | some n =>
    simp [intoBattery, Battery.json, mapText, mapTextMembers, intoStruct, intoMember, fieldOf, batteryFields,
      Decoder.into, intoBool, intoPointer, ofOption, intoInt_ofInt (h n rfl)]

theorem intoTime_written (t old : Time) (h : jsonTime t) :
    intoTime ((ofTime t).mapText written Numeral.ofInt) old = some t := by
  rw [ofTime, mapText, written, writeChars_formatNano, String.ofList_toList]
  exact (marshals_of_jsonTime h).2

theorem intoReport_written {p : ReportPayload} (h : p.InRange) (htime : jsonTime p.reportedAt) (old : ReportPayload) :
    intoReport (p.json.mapText written Numeral.ofInt) old = some p := by
  have hactivity := intoActivity_written h.idleSeconds
  have htimes := fun old => intoTime_written p.reportedAt old htime
  have hbattery : ∀ old, intoPointer default intoBattery
      (mapText written Numeral.ofInt (ofOption Battery.json p.battery)) old = some p.battery := by
    intro old
    cases hb : p.battery with
    | none => rfl
    | some b =>
      have hread := intoBattery_written (h.level b hb) (old.getD default)
      exact congrArg (Option.map some) hread
  have hnetwork : ∀ old, intoPointer "" intoString
      (mapText written Numeral.ofInt (ofOption Json.string p.network)) old = some p.network := by
    intro old
    cases p.network with
    | none => rfl
    | some network => simp [ofOption, mapText, intoPointer, intoString]
  simp [intoReport, ReportPayload.json, mapText, mapTextMembers, intoStruct, intoMember, fieldOf, reportFields,
    Decoder.into, intoString, hactivity, hbattery, hnetwork, htimes]

theorem depth_report (p : ReportPayload) : (p.json.mapText written Numeral.ofInt).depth ≤ maxNestingDepth := by
  have hbattery : ((ofOption Battery.json p.battery).mapText written Numeral.ofInt).depth ≤ 1 := by
    cases p.battery with
    | none => simp [ofOption, mapText, depth]
    | some b => cases hlevel : b.level <;> simp [ofOption, Battery.json, mapText, mapTextMembers, depth, depthMembers, hlevel]
  have hnetwork : ((ofOption Json.string p.network).mapText written Numeral.ofInt).depth = 0 := by
    cases p.network <;> simp [ofOption, mapText, depth]
  simp [ReportPayload.json, Activity.json, ofTime, mapText, mapTextMembers, depth, depthMembers, hnetwork, maxNestingDepth]
  omega

/-- A report is decoded from its text, sent or stored. -/
theorem decode_text {p : ReportPayload} (h : p.InRange) (htime : jsonTime p.reportedAt) :
    decodeReport (text p.json) = some p ∧ readReport (text p.json) = some p := by
  have hends : Ends [] := fun c hc => nomatch hc
  have hread := readFirst_write (fun s => rawBody_writeChars (fun _ => escapeHTML_lt) s) p.json hends
  rw [List.append_nil] at hread
  change readFirst rawBody (text p.json) = some (p.json.mapText written Numeral.ofInt, []) at hread
  have hvalue := intoReport_written h htime default
  constructor
  · rw [decodeReport, decodeFirst, hread, Option.bind_some, if_pos (depth_report p), hvalue]
  · have hwhole : JsonText.read rawBody (text p.json) = some (p.json.mapText written Numeral.ofInt) := by
      rw [JsonText.read, hread]
      rfl
    rw [readReport, unmarshalText, hwhole, Option.bind_some, if_pos (depth_report p), hvalue]

/-! ### What is decoded -/

theorem intoTime_ofText (j : Json Numeral) (t t' : Time) (ht : t.OfText) (h : intoTime j t = some t') : t'.OfText := by
  cases j with
  | null =>
    cases h
    exact ht
  | string body => exact Time.ofText_parse h
  | number m => cases h
  | bool b => cases h
  | array elems => cases h
  | object members => cases h

theorem isInt64_intoActivity (j : Json Numeral) (a a' : Activity) (ha : isInt64 a.idleSeconds)
    (h : intoActivity j a = some a') : isInt64 a'.idleSeconds := by
  apply intoStruct_preserves (P := fun a => isInt64 a.idleSeconds) _ j a a' ha h
  simp only [activityFields, List.forall_mem_cons]
  exact ⟨into_preserves_of_set fun _ _ ha => ha, into_preserves_of_set fun _ _ ha => ha,
    into_preserves_of_set fun _ _ ha => ha, into_preserves isInt64_of_intoInt (fun _ ha => ha) fun _ _ _ hn => hn,
    into_preserves_of_set fun _ _ ha => ha, fun _ h => nomatch h⟩

theorem isInt64_intoBattery (j : Json Numeral) (b b' : Battery) (hb : ∀ n ∈ b.level, isInt64 n)
    (h : intoBattery j b = some b') : ∀ n ∈ b'.level, isInt64 n := by
  apply intoStruct_preserves (P := fun b => ∀ n ∈ b.level, isInt64 n) _ j b b' hb h
  simp only [batteryFields, List.forall_mem_cons]
  exact ⟨into_preserves (intoPointer_preserves (by decide) isInt64_of_intoInt) (fun _ hb => hb) fun _ _ _ hn => hn,
    into_preserves_of_set fun _ _ hb => hb, fun _ h => nomatch h⟩

/-- What is decoded of any text is written again unless its zone is a day or longer. -/
theorem decodeReport_spec {body : List Char} {p : ReportPayload} (h : decodeReport body = some p) :
    p.InRange ∧ p.reportedAt.OfText := by
  rw [decodeReport, decodeFirst, Option.bind_eq_some_iff] at h
  obtain ⟨⟨j, rest⟩, -, h⟩ := h
  split_ifs at h
  have hzero : (default : ReportPayload).InRange := ⟨by decide, fun b hb => nomatch hb⟩
  apply intoStruct_preserves (P := fun p => p.InRange ∧ p.reportedAt.OfText) _ j default p
    ⟨hzero, Time.ofText_zero⟩ h
  have hplain {set : ReportPayload → String → ReportPayload}
      (hset : ∀ p s, (set p s).activity = p.activity ∧ (set p s).battery = p.battery ∧
        (set p s).reportedAt = p.reportedAt) (p : ReportPayload) (s : String)
      (hp : p.InRange ∧ p.reportedAt.OfText) : (set p s).InRange ∧ (set p s).reportedAt.OfText := by
    obtain ⟨hactivity, hbattery, htime⟩ := hset p s
    exact ⟨⟨hactivity ▸ hp.1.idleSeconds, hbattery ▸ hp.1.level⟩, htime ▸ hp.2⟩
  simp only [reportFields, List.forall_mem_cons]
  exact ⟨into_preserves_of_set (hplain fun _ _ => ⟨rfl, rfl, rfl⟩),
    into_preserves_of_set (hplain fun _ _ => ⟨rfl, rfl, rfl⟩),
    into_preserves_of_set (hplain fun _ _ => ⟨rfl, rfl, rfl⟩),
    into_preserves isInt64_intoActivity (fun _ hp => hp.1.idleSeconds) fun _ _ hp ha => ⟨⟨ha, hp.1.level⟩, hp.2⟩,
    into_preserves (intoPointer_preserves (fun n hn => nomatch hn) isInt64_intoBattery) (fun _ hp => hp.1.level)
      fun _ _ hp hb => ⟨⟨hp.1.idleSeconds, hb⟩, hp.2⟩,
    into_preserves_of_set fun _ _ hp => ⟨⟨hp.1.idleSeconds, hp.1.level⟩, hp.2⟩,
    into_preserves intoTime_ofText (fun _ hp => hp.2) fun _ _ hp ht => ⟨⟨hp.1.idleSeconds, hp.1.level⟩, ht⟩,
    fun _ h => nomatch h⟩

end CyberstalkMe.Shared
