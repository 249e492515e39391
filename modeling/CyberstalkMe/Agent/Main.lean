import CyberstalkMe.Agent.Endpoint
import CyberstalkMe.Collect.Snapshot
import CyberstalkMe.Mapping.Noninterference
import CyberstalkMe.Report.Loop
import CyberstalkMe.Shared.ReportText

/-! # The agent

Collecting, mapping and reporting put together, cycle after cycle, down to the texts that leave the machine.
What leaves it does not depend on the directory of a program, on the order of the adapters, nor on more of a
window title than the rules ask for.
-/
namespace CyberstalkMe.Agent

open Go Shared Collect Mapping

variable {lib : Library}

/-! ### One cycle -/

/-- The seam between the collectors and the mapper. The getter of a snapshot without a window is there, and
yields the empty title. -/
def resolve (mapper : Mapper lib.toLibrary) (snap : Snapshot) : Activity :=
  (mapper.resolve snap.process (some (pure (snap.title.getD ""))) snap.idleSeconds : Id Activity)

/-- The payload of a cycle, not yet stamped with a time. -/
def next (cfg : Config) (mapper : Mapper lib.toLibrary) (d : Desktop) : ReportPayload :=
  let snap := collect lib.lower d
  { deviceID := cfg.deviceID
    deviceName := cfg.deviceName
    deviceType := "windows"
    activity := resolve mapper snap
    battery := snap.battery
    network := if snap.network ≠ "" then some snap.network else none
    reportedAt := default }

/-- A request as it leaves the machine. -/
structure Message where
  url : String
  authorization : String
  body : List Char
deriving DecidableEq, Repr

def yearError : String :=
  "json: error calling MarshalJSON for type time.Time: Time.MarshalJSON: year outside of range [0,9999]"

/-- What `Client.Send` posts. -/
def message (cfg : Config) (p : ReportPayload) : Option Message :=
  (encodeReport p).map fun body => ⟨cfg.reportURL, "Bearer " ++ cfg.token, body⟩

/-- What a cycle meets: the error of its context, the desktop, the clock, what becomes of a message, and the
error of the sleep that ends it. -/
structure Cycle where
  cancelled : Option String
  desktop : Desktop
  now : Time
  world : Message → Report.Attempt
  sleepErr : Option String

def Cycle.round (cfg : Config) (mapper : Mapper lib.toLibrary) (c : Cycle) : Report.Round where
  cancelled := c.cancelled
  payload := next cfg mapper c.desktop
  now := c.now
  attempt p :=
    match message cfg p with
    | none => .notEncoded yearError
    | some m => c.world m
  sleepErr := c.sleepErr

/-- The agent with a configuration and its mapper. -/
def run (cfg : Config) (mapper : Mapper lib.toLibrary) (cycles : List Cycle) : Report.Trace :=
  Report.run cfg.interval (cycles.map (Cycle.round cfg mapper))

/-! ### What a cycle reports -/

section Reported
variable {opts : Options} {mapper : Mapper lib.toLibrary}

/-- The title of an exposed window. An empty one is replaced. -/
def titleOr (description title : String) : String := if trimSpace title ≠ "" then trimSpace title else description

/-- The activity that the options assign to a process and a title, exposed or not. -/
def reported (lib : Mapping.Library) (opts : Options) (process : String) (idleSeconds : ℤ) (title : String) : Activity :=
  let fixed := opts.activity lib process idleSeconds ""
  if opts.exposes lib process then
    match opts.ruleFor lib process with
    | none => fixed
    | some r => { fixed with description := titleOr r.description title }
  else opts.activity lib process idleSeconds title

theorem resolve_reported (h : mapper.Of opts) (snap : Snapshot) :
    resolve mapper snap = reported lib.toLibrary opts snap.process snap.idleSeconds (snap.title.getD "") := by
  rw [resolve, reported]
  by_cases hexposes : opts.exposes lib.toLibrary snap.process
  · rw [if_pos hexposes]
    have hidle : (if snap.idleSeconds < 0 then 0 else snap.idleSeconds) = max snap.idleSeconds 0 := by omega
    have hrule := h.rule snap.process
    rw [Mapper.resolve]
    simp only [hidle, h.idleThreshold, h.defaultApp, h.defaultDescription, h.lockedApp, h.lockedDescription]
    cases hfor : opts.ruleFor lib.toLibrary snap.process with
    | none =>
      rw [hfor] at hrule
      rw [Options.activity, hfor]
      by_cases hblank : normalize lib.toLibrary snap.process = ""
      · simp [hblank]
        rfl
      · simp [hblank, hrule]
        rfl
    | some r =>
      rw [hfor] at hrule
      obtain ⟨hblank, cr, hlookup, hcr⟩ := hrule
      have hkey := (h.expose snap.process).mpr hexposes
      rw [Options.activity, hfor, if_neg hblank, hlookup]
      simp only [if_pos hkey, hblank, hcr.app, hcr.description, readTitle]
      rw [pure_bind]
      by_cases htitle : trimSpace (snap.title.getD "") = ""
      · rw [titleOr, if_neg (not_not.mpr htitle), if_neg (not_not.mpr htitle)]
        rfl
      · rw [titleOr, if_pos htitle, if_pos htitle]
        rfl
  · rw [if_neg hexposes, resolve_eq h hexposes]
    by_cases hneeds : opts.needsTitle lib.toLibrary snap.process
    · rw [if_pos hneeds]
      rfl
    · rw [if_neg hneeds]
      exact activity_of_not_needsTitle hneeds _

theorem app_reported (lib : Mapping.Library) (opts : Options) (process : String) (idleSeconds : ℤ) (title : String) :
    (reported lib opts process idleSeconds title).app = (opts.activity lib process idleSeconds title).app := by
  simp only [reported]
  split_ifs
  · cases hfor : opts.ruleFor lib process with
    | none => simp only [Options.activity, hfor]
    | some r => simp only [Options.activity, hfor]
  · rfl

/-- The title of an exposed process up to space around it, and of another one up to the patterns that match. -/
def SameTitle (lib : Mapping.Library) (opts : Options) (process title title' : String) : Prop :=
  if opts.exposes lib process then trimSpace title = trimSpace title'
  else ∀ r, opts.ruleFor lib process = some r → r.firstMatch lib title = r.firstMatch lib title'

theorem reported_congr {process title title' : String} (h : SameTitle lib.toLibrary opts process title title')
    (idleSeconds : ℤ) :
    reported lib.toLibrary opts process idleSeconds title = reported lib.toLibrary opts process idleSeconds title' := by
  simp only [reported]
  split_ifs with hexposes
  · rw [SameTitle, if_pos hexposes] at h
    simp only [titleOr, h]
  · rw [SameTitle, if_neg hexposes] at h
    exact activity_eq_of_firstMatch h

theorem description_reported (h : mapper.Of opts) (process : String) (idleSeconds : ℤ) (title : String) :
    opts.Configured lib.toLibrary process (reported lib.toLibrary opts process idleSeconds title).description ∨
      opts.exposes lib.toLibrary process ∧
        (reported lib.toLibrary opts process idleSeconds title).description = trimSpace title := by
  have hactivity (raw : String) :
      opts.Configured lib.toLibrary process (opts.activity lib.toLibrary process idleSeconds raw).description :=
    activity_configured h idleSeconds raw
  simp only [reported]
  split_ifs with hexposes
  · cases hfor : opts.ruleFor lib.toLibrary process with
    | none => exact .inl (hactivity "")
    | some r =>
      obtain ⟨hr, hname⟩ := h.ruleFor_eq_some.mp hfor
      dsimp only [titleOr]
      split_ifs
      · exact .inr ⟨hexposes, rfl⟩
      · exact .inl (.inr (.inr ⟨r, hr, hname, .inl rfl⟩))
  · exact .inl (hactivity title)

end Reported

/-! ### What leaves the machine -/

structure AlikeWindows (lib : Library) (opts : Options) (w w' : Window) : Prop where
  process : foregroundProcess lib.lower w = foregroundProcess lib.lower w'
  title : SameTitle lib.toLibrary opts (foregroundProcess lib.lower w) w.title w'.title

/-- Desktops that the collectors and the rules take for the same. -/
structure Alike (lib : Library) (opts : Options) (d d' : Desktop) : Prop where
  lastInput : d.lastInput = d'.lastInput
  tickCount : d.tickCount = d'.tickCount
  power : d.power = d'.power
  adapters : Option.Rel List.Perm (getAdapters d.adapters maxGetAdaptersAttempts)
    (getAdapters d'.adapters maxGetAdaptersAttempts)
  foreground : Option.Rel (AlikeWindows lib opts) d.foreground d'.foreground

/-- Cycles that differ in their desktops only, and there in nothing that counts. -/
structure Cycle.Alike (lib : Library) (opts : Options) (c c' : Cycle) : Prop where
  desktop : Agent.Alike lib opts c.desktop c'.desktop
  rest : c' = { c with desktop := c'.desktop }

section Wire
variable {cfg : Config} {mapper : Mapper lib.toLibrary}

theorem network_alike {opts : Options} {d d' : Desktop} (h : Alike lib opts d d') : network d = network d' := by
  have hadapters := h.adapters
  rw [network, network]
  generalize getAdapters d.adapters maxGetAdaptersAttempts = answer at hadapters ⊢
  generalize getAdapters d'.adapters maxGetAdaptersAttempts = answer' at hadapters ⊢
  cases hadapters with
  | none => rfl
  | some hperm => exact congrArg Prod.fst (bestNetwork_perm hperm)

/-- Snapshots of such desktops differ in a title that counts for the same. -/
theorem collect_alike {opts : Options} {d d' : Desktop} (h : Alike lib opts d d') :
    ∃ title, collect lib.lower d' = { collect lib.lower d with title } ∧
      SameTitle lib.toLibrary opts (collect lib.lower d).process ((collect lib.lower d).title.getD "") (title.getD "") := by
  have hidle : idleSeconds d' = idleSeconds d := by rw [idleSeconds, idleSeconds, h.lastInput, h.tickCount]
  have hbattery : battery d' = battery d := by rw [battery, battery, h.power]
  have hsame (process title : String) : SameTitle lib.toLibrary opts process title title := by
    rw [SameTitle]
    split_ifs
    · rfl
    · exact fun _ _ => rfl
  have hforeground := h.foreground
  rw [collect, collect, hidle, hbattery, ← network_alike h]
  generalize d.foreground = w at hforeground ⊢
  generalize d'.foreground = w' at hforeground ⊢
  cases hforeground with
  | none => exact ⟨none, rfl, hsame _ _⟩
  | some hw =>
    rename_i w w'
    have htitle := hw.title
    dsimp only
    rw [← hw.process]
    split_ifs
    · exact ⟨none, rfl, hsame _ _⟩
    · exact ⟨some w'.title, rfl, htitle⟩

/-- The payload of a cycle depends on the desktop only as far as the options let it. -/
theorem next_congr (hnew : Mapper.new lib.toLibrary cfg.mapperOptions = .ok mapper) {d d' : Desktop}
    (h : Alike lib cfg.mapperOptions d d') : next cfg mapper d = next cfg mapper d' := by
  have hof := Mapper.of_new hnew
  obtain ⟨title, hcollect, htitle⟩ := collect_alike h
  simp only [next, hcollect, resolve_reported hof, reported_congr htitle]

theorem round_congr (hnew : Mapper.new lib.toLibrary cfg.mapperOptions = .ok mapper) {c c' : Cycle}
    (h : c.Alike lib cfg.mapperOptions c') : c.round cfg mapper = c'.round cfg mapper := by
  rw [h.rest, Cycle.round, Cycle.round, next_congr hnew h.desktop]

/-- The payload that a cycle is about to send. -/
def Cycle.payload (cfg : Config) (mapper : Mapper lib.toLibrary) (c : Cycle) : ReportPayload :=
  { next cfg mapper c.desktop with reportedAt := c.now.utc }

theorem payloads_loop (interval period : Duration) (cycles : List Cycle) :
    (Report.loop interval period (cycles.map (Cycle.round cfg mapper))).sent.map Report.Sent.payload <+:
      cycles.map (Cycle.payload cfg mapper) := by
  induction cycles generalizing period with
  | nil => exact List.prefix_rfl
  | cons c cycles ih =>
    rw [List.map_cons, List.map_cons, Report.loop]
    cases hcancelled : (c.round cfg mapper).cancelled with
    | some err => exact List.nil_prefix
    | none =>
      dsimp only
      cases hsleep : (c.round cfg mapper).sleepErr with
      | some err => exact List.prefix_append [c.payload cfg mapper] _
      | none => exact (List.prefix_cons_inj (c.payload cfg mapper)).mpr (ih _)

theorem payloads_run (cycles : List Cycle) :
    (run cfg mapper cycles).sent.map Report.Sent.payload <+: cycles.map (Cycle.payload cfg mapper) :=
  payloads_loop cfg.interval cfg.interval cycles

/-- A payload of a configuration: its identity and texts are the configuration's, up to the title of a window
that is exposed. -/
structure Sanitized (lib : Library) (cfg : Config) (process title : String) (p : ReportPayload) : Prop where
  deviceID : p.deviceID = cfg.deviceID
  deviceName : p.deviceName = cfg.deviceName
  deviceType : p.deviceType = "windows"
  app : p.activity.app ∈ cfg.lockedApp :: cfg.defaultApp :: cfg.rules.map Mapping.Rule.app
  description : cfg.mapperOptions.Configured lib.toLibrary process p.activity.description ∨
    cfg.mapperOptions.exposes lib.toLibrary process ∧ p.activity.description = trimSpace title
  network : p.network.getD "" ∈ ["", "offline", "cellular", "wifi", "ethernet"]

theorem network_mem (d : Desktop) : network d ∈ ["", "offline", "cellular", "wifi", "ethernet"] := by
  rw [network]
  cases getAdapters d.adapters maxGetAdaptersAttempts with
  | none => simp
  | some adapters =>
    have hbest : (bestNetwork ("offline", 0) adapters).1 = networkOf ((adapters.map rankOf).foldl max 0) :=
      congrArg Prod.fst (bestNetwork_eq 0 adapters)
    dsimp only
    rw [hbest]
    generalize (adapters.map rankOf).foldl max 0 = rank
    match rank with
    | 0 => simp [networkOf]
    | 1 => simp [networkOf]
    | 2 => simp [networkOf]
    | _ + 3 => simp [networkOf]

theorem app_activity (h : mapper.Of cfg.mapperOptions) (process : String) (idleSeconds : ℤ) (title : String) :
    (cfg.mapperOptions.activity lib.toLibrary process idleSeconds title).app ∈
      cfg.lockedApp :: cfg.defaultApp :: cfg.rules.map Mapping.Rule.app := by
  simp only [Options.activity]
  split_ifs
  · exact List.mem_cons_self
  · cases hfor : cfg.mapperOptions.ruleFor lib.toLibrary process with
    | none => simp [Config.mapperOptions]
    | some r =>
      have hr : r ∈ cfg.rules := (h.ruleFor_eq_some.mp hfor).1
      exact List.mem_cons_of_mem _ (List.mem_cons_of_mem _ (List.mem_map_of_mem hr))

theorem sanitized_payload (hnew : Mapper.new lib.toLibrary cfg.mapperOptions = .ok mapper) (c : Cycle) :
    Sanitized lib cfg (collect lib.lower c.desktop).process ((collect lib.lower c.desktop).title.getD "")
      (c.payload cfg mapper) := by
  have hof := Mapper.of_new hnew
  constructor
  · rfl
  · rfl
  · rfl
  · simp only [Cycle.payload, next, resolve_reported hof, app_reported]
    exact app_activity hof _ _ _
  · simp only [Cycle.payload, next, resolve_reported hof]
    exact description_reported hof _ _ _
  · simp only [Cycle.payload, next]
    have hnetwork : (collect lib.lower c.desktop).network = network c.desktop := by
      rw [collect]
      cases c.desktop.foreground with
      | none => rfl
      | some w =>
        dsimp only
        split_ifs <;> rfl
    have hmem := network_mem c.desktop
    rw [hnetwork]
    by_cases hnone : network c.desktop = ""
    · simp [hnone]
    · simpa [hnone] using hmem

/-- Whatever the server answers, runs over alike desktops send the same messages at the same times, and every
payload sent belongs to one cycle and is sanitized. -/
theorem reports_noninterfere (lib : Library) (cfg : Config) (mapper : Mapper lib.toLibrary)
    (hnew : Mapper.new lib.toLibrary cfg.mapperOptions = .ok mapper) (cycles cycles' : List Cycle)
    (h : List.Forall₂ (Cycle.Alike lib cfg.mapperOptions) cycles cycles') :
    run cfg mapper cycles = run cfg mapper cycles' ∧
      ∃ sent, List.Forall₂ (fun (c : Cycle) (s : Report.Sent) => s.payload = c.payload cfg mapper ∧
          Sanitized lib cfg (collect lib.lower c.desktop).process ((collect lib.lower c.desktop).title.getD "") s.payload)
        (cycles.take sent) (run cfg mapper cycles).sent := by
  constructor
  · have hrounds : cycles.map (Cycle.round cfg mapper) = cycles'.map (Cycle.round cfg mapper) := by
      induction h with
      | nil => rfl
      | cons hc _ ih => rw [List.map_cons, List.map_cons, round_congr hnew hc, ih]
    rw [run, run, hrounds]
  · have hprefix : (run cfg mapper cycles).sent.map Report.Sent.payload <+: cycles.map (Cycle.payload cfg mapper) :=
      payloads_run cycles
    have hsent := List.prefix_iff_eq_take.mp hprefix
    rw [List.length_map, ← List.map_take] at hsent
    refine ⟨(run cfg mapper cycles).sent.length, ?_⟩
    generalize cycles.take (run cfg mapper cycles).sent.length = started at hsent ⊢
    generalize (run cfg mapper cycles).sent = sent at hsent ⊢
    induction started generalizing sent with
    | nil =>
      cases sent with
      | nil => exact .nil
      | cons s sent => cases hsent
    | cons c started ih =>
      cases sent with
      | nil => cases hsent
      | cons s sent =>
        rw [List.map_cons, List.map_cons, List.cons.injEq] at hsent
        refine .cons ⟨hsent.1, ?_⟩ (ih sent hsent.2)
        rw [hsent.1]
        exact sanitized_payload hnew c

end Wire

/-! ### Two desktops -/

namespace Sample

def library : Library := { Mapping.Sample.library with urlError _ := "parse error" }

def config : Config :=
  { (sampleConfig "http://a").normalize with
    rules := Mapping.Sample.options.rules
    exposeTitle := Mapping.Sample.options.exposeTitle
    defaultApp := Mapping.Sample.options.defaultApp
    defaultDescription := Mapping.Sample.options.defaultDescription
    lockedApp := Mapping.Sample.options.lockedApp
    lockedDescription := Mapping.Sample.options.lockedDescription }

def wifi : Adapter := ⟨1, 71, true⟩
def ethernet : Adapter := ⟨1, 6, true⟩

/-- A browser in the foreground. -/
def desktop (image title : String) (adapters : List Adapter) : Desktop where
  lastInput := some 1000
  tickCount := 43000
  power := none
  adapters _ := .ok adapters
  foreground := some ⟨some image.toList, title⟩

def cycle (d : Desktop) : Cycle where
  cancelled := none
  desktop := d
  now := Time.ofSeconds 0
  world _ := .answered 204
  sleepErr := none

def work : Desktop := desktop "C:\\Work\\chrome.exe" "pull requests - GitHub" [wifi, ethernet]

def home : Desktop := desktop "D:\\home\\Chrome.EXE" "GitHub" [ethernet, wifi]

/-- A terminal, whose titles are exposed. -/
def shell : Desktop := desktop "C:\\Work\\term.exe" "  vim notes" [wifi]

def shellAtHome : Desktop := desktop "D:\\home\\TERM.exe" "vim notes " [wifi]

/-- An editor, whose titles nothing asks for. -/
def editor : Desktop := desktop "C:\\Work\\code.exe" "secret.txt" []

def editorAtHome : Desktop := desktop "C:\\Work\\code.exe" "diary.txt" []

theorem alike_desktop {image image' title title' : String} {adapters adapters' : List Adapter}
    (hadapters : adapters.Perm adapters')
    (h : AlikeWindows library config.mapperOptions ⟨some image.toList, title⟩ ⟨some image'.toList, title'⟩) :
    Alike library config.mapperOptions (desktop image title adapters) (desktop image' title' adapters') where
  lastInput := rfl
  tickCount := rfl
  power := rfl
  adapters := .some hadapters
  foreground := .some h

theorem alike : Alike library config.mapperOptions work home := by
  have hfirst : ∀ r ∈ config.mapperOptions.rules, r.firstMatch library.toLibrary "pull requests - GitHub" =
      r.firstMatch library.toLibrary "GitHub" := by decide +kernel
  apply alike_desktop (List.Perm.swap ethernet wifi [])
  refine ⟨by decide +kernel, ?_⟩
  rw [SameTitle, if_neg (by decide +kernel)]
  intro r hfor
  exact hfirst r (List.mem_of_find?_eq_some hfor)

theorem alike_shell : Alike library config.mapperOptions shell shellAtHome := by
  apply alike_desktop (List.Perm.refl _)
  refine ⟨by decide +kernel, ?_⟩
  rw [SameTitle, if_pos (by decide +kernel)]
  decide

theorem alike_editor : Alike library config.mapperOptions editor editorAtHome := by
  have hfirst : ∀ r ∈ config.mapperOptions.rules, r.firstMatch library.toLibrary "secret.txt" =
      r.firstMatch library.toLibrary "diary.txt" := by decide +kernel
  apply alike_desktop (List.Perm.refl _)
  refine ⟨rfl, ?_⟩
  rw [SameTitle, if_neg (by decide +kernel)]
  intro r hfor
  exact hfirst r (List.mem_of_find?_eq_some hfor)

end Sample

open Sample in
/-- Three cycles, the second of which fails: a browser, a terminal and an editor. -/
theorem reports_noninterfere_sample : ∃ mapper, Mapper.new library.toLibrary config.mapperOptions = .ok mapper ∧
    run config mapper [cycle work, { cycle shell with world := fun _ => .answered 500 }, cycle editor] =
      run config mapper [cycle home, { cycle shellAtHome with world := fun _ => .answered 500 }, cycle editorAtHome] := by
  obtain ⟨mapper, hnew⟩ := Mapping.Sample.exists_mapper
  refine ⟨mapper, hnew, ?_⟩
  exact (reports_noninterfere library config mapper hnew _ _
    (.cons ⟨alike, rfl⟩ (.cons ⟨alike_shell, rfl⟩ (.cons ⟨alike_editor, rfl⟩ .nil)))).1

end CyberstalkMe.Agent
