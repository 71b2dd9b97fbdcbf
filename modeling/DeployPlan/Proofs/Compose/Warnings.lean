import DeployPlan.Proofs.Archive
import DeployPlan.Proofs.Compose.ActionOutcome
import DeployPlan.Proofs.Compose.Events

/-!
# What is warned of when an action is composed

What an action declares is not always taken: its runtime may give way to another, and limits may be
left out.  Each time a warning tells of it, and of nothing else do warnings of runtimes and limits
tell.

## Main definitions

* `Event.warnsOf` — the event is a warning that starts with some words.
* `LimitKind` — the limits that an action can declare, with their bounds if the platform knows them.
* `LimitKind.Dropped`, `LimitKind.Sound` — a limit is declared and not taken; nothing is wrong with
  a limit.

## Main results

* `Context.concerning_composeAction` — the warnings of runtimes and limits among all that is told
  about an action.
* `LimitsSpec.filter_events` — those of one limit among those of all.
* `Context.composeAction_warns` — what an action declares is taken, or a warning tells that it is
  not; without a reason there is no such warning.
-/

set_option autoImplicit false

namespace DeployPlan

variable {α β : Type}

/-! ## Warnings by their first words -/

namespace Event

/-- The event is a warning that starts with some words. -/
def warnsOf (front : String) : Event → Bool
  | .log .warn text => front.toList.isPrefixOf text.toList
  | .log .debug _ | .log .info _ | .archiveAdded _ | .archiveRemoved _ => false

/-- The event is a warning of a runtime or of a limit. -/
def concerns (e : Event) : Bool := e.warnsOf "runtime " || e.warnsOf "limit "

/-- A warning starts with its first words, and with all words that they start with. -/
theorem warnsOf_warning {front : String} (words : String) (h : front.toList <+: words.toList)
    (rest : String) : (warning (words ++ rest)).warnsOf front = true := by
  rw [warning, warnsOf, List.isPrefixOf_iff_prefix, String.toList_append]
  exact h.trans (List.prefix_append _ _)

/-- An event that starts with some words starts with all words that they start with. -/
theorem warnsOf_of_prefix {e : Event} {front words : String} (h : front.toList <+: words.toList)
    (hwords : e.warnsOf words = true) : e.warnsOf front = true := by
  cases e with
  | archiveAdded path | archiveRemoved path => exact hwords
  | log level text =>
    cases level with
    | debug | info => exact hwords
    | warn =>
      rw [warnsOf, List.isPrefixOf_iff_prefix] at hwords ⊢
      exact h.trans hwords

/-- An event that starts with some words does not start with others, unless one of them starts with
the other. -/
theorem warnsOf_eq_false {e : Event} {front words : String} (h : e.warnsOf words = true)
    (hapart : ¬ front.toList <+: words.toList ∧ ¬ words.toList <+: front.toList) :
    e.warnsOf front = false := by
  cases e with
  | archiveAdded path | archiveRemoved path => rfl
  | log level text =>
    cases level with
    | debug | info => rfl
    | warn =>
      rw [warnsOf, List.isPrefixOf_iff_prefix] at h
      rw [warnsOf, Bool.eq_false_iff, ne_eq, List.isPrefixOf_iff_prefix]
      intro hfront
      obtain hle | hle := Nat.le_total front.toList.length words.toList.length
      · exact hapart.1 (List.prefix_of_prefix_length_le hfront h hle)
      · exact hapart.2 (List.prefix_of_prefix_length_le h hfront hle)

/-- So it is no warning of runtimes or limits, if it starts with the words of neither. -/
theorem concerns_eq_false_of_warnsOf {e : Event} {words : String} (h : e.warnsOf words = true)
    (hapart : ∀ front ∈ ["runtime ", "limit "],
      ¬ front.toList <+: words.toList ∧ ¬ words.toList <+: front.toList) :
    e.concerns = false :=
  Bool.or_eq_false_iff.mpr ⟨warnsOf_eq_false h (hapart _ (by decide)),
    warnsOf_eq_false h (hapart _ (by decide))⟩

/-- Minor messages are no such warnings. -/
theorem Minor.concerns_eq_false {e : Event} (h : e.Minor) : e.concerns = false := by
  cases h with
  | @log level h text => cases level <;> first | rfl | exact absurd rfl h
  | dropped key =>
    exact concerns_eq_false_of_warnsOf (warnsOf_warning _ List.prefix_rfl _) (by decide)
  | skipped name =>
    exact concerns_eq_false_of_warnsOf (warnsOf_warning _ List.prefix_rfl _) (by decide)

end Event

/-- The warnings of runtimes and limits among some events. -/
def concerning (events : List Event) : List Event := events.filter Event.concerns

/-- They are those of the first events, and then those of the others. -/
@[simp] theorem concerning_append (events events' : List Event) :
    concerning (events ++ events') = concerning events ++ concerning events' :=
  List.filter_append ..

/-- All warnings of one limit are among them. -/
theorem filter_concerning {front : String} (h : "limit ".toList <+: front.toList)
    (events : List Event) :
    (concerning events).filter (Event.warnsOf front) = events.filter (Event.warnsOf front) := by
  rw [concerning, List.filter_filter]
  refine List.filter_congr fun e _ => ?_
  cases hfront : e.warnsOf front with
  | false => rw [Bool.false_and]
  | true => rw [Event.concerns, Event.warnsOf_of_prefix h hfront, Bool.or_true, Bool.true_and]

/-- There are none among other events. -/
theorem concerning_eq_nil {events : List Event} (h : ∀ e ∈ events, e.concerns = false) :
    concerning events = [] :=
  List.filter_eq_nil_iff.mpr fun e he => Bool.eq_false_iff.mp (h e he)

/-- There are none in reports of minor messages. -/
theorem Report.Tells.concerning_eq_nil {r : Report α} (h : r.Tells Event.Minor) :
    concerning r.events = [] :=
  DeployPlan.concerning_eq_nil fun e he => (h e he).concerns_eq_false

/-- What is told on the way to a result is told by both parts. -/
theorem Report.exists_of_bind_eq_ok {r : Report α} {f : α → Report β} {b : β}
    (h : (r >>= f).result = .ok b) :
    ∃ a, r.result = .ok a ∧ (f a).result = .ok b ∧ (r >>= f).events = r.events ++ (f a).events := by
  rw [Report.result_bind, Except.bind_eq_ok_iff] at h
  obtain ⟨a, ha, hb⟩ := h
  refine ⟨a, ha, hb, ?_⟩
  show (Report.bind r f).events = _
  rw [Report.bind, ha]

namespace Context

variable {ctx : Context} {package name : String} {spec : ActionSpec} {t : FileTree}

/-- Of an action with its source, only the runtime and the limits are warned of. -/
theorem concerning_actionOf {loaded : Option LoadedSource} {r : ActionRecord}
    (h : (ctx.actionOf package name spec loaded).result = .ok r) :
    concerning (ctx.actionOf package name spec loaded).events =
      concerning (ctx.runtimeKind name spec.runtime loaded).events ++
        concerning (actionLimits name spec).events := by
  rw [actionOf] at h ⊢
  obtain ⟨kind, -, h, hevents⟩ := Report.exists_of_bind_eq_ok h
  rw [hevents, concerning_append]
  obtain ⟨parameters, -, h, hevents⟩ := Report.exists_of_bind_eq_ok h
  rw [hevents, concerning_append, (ctx.parameters_minor _).concerning_eq_nil, List.nil_append]
  obtain ⟨_, -, h, hevents⟩ := Report.exists_of_bind_eq_ok h
  rw [hevents, concerning_append, (ctx.checkOutputs_minor _ _).concerning_eq_nil, List.nil_append]
  obtain ⟨annotations, -, h, hevents⟩ := Report.exists_of_bind_eq_ok h
  rw [hevents, concerning_append, (ctx.actionAnnotations_minor _ _).concerning_eq_nil,
    List.nil_append]
  obtain ⟨limits, -, h, hevents⟩ := Report.exists_of_bind_eq_ok h
  rw [hevents, concerning_append]
  obtain ⟨ns, -, -, hevents⟩ := Report.exists_of_bind_eq_ok h
  rw [hevents, concerning_append, (ctx.namespaceOr_minor _).concerning_eq_nil]
  exact congrArg _ (List.append_nil _)

/-- Of an archive that is packed, nothing is warned of but what goes on with it warns of. -/
theorem concerning_pack [P : Packer] {path : String} {s : ScratchFile} {es : List Zip.Entry}
    (h : Archive.Packs t path s es) (body : String → Compose α) :
    concerning (Archive.pack path body t).report.events =
      concerning (body s.path (s.addTo t (P.zip.write es))).report.events := by
  have hentries := (Archive.entriesAt_minor (s.addTo t Packer.found) path s).concerning_eq_nil
  rw [h.pack_eq_within]
  show concerning ((.archiveAdded s.path ::
    ((Archive.entriesAt (s.addTo t Packer.found) path s).events ++
    (body s.path (s.addTo t (P.zip.write es))).report.events)) ++ [.archiveRemoved s.path]) = _
  rw [concerning_append, ← List.singleton_append, concerning_append, concerning_append, hentries]
  exact List.append_nil _

/-- Of a directory, nothing is warned of but what goes on with it warns of. -/
theorem concerning_withDirectory [P : Packer] {path : String} {f : LoadedSource → Report α} {a : α}
    (h : (withDirectory name path spec fun loaded => Compose.ofReport (f loaded)).resultAt t =
      .ok a) :
    ∃ code, spec.runtime ≠ "" ∧ packedCode path t = .ok code ∧
      (f ⟨path, .archive, code⟩).result = .ok a ∧
      concerning (withDirectory name path spec
        (fun loaded => Compose.ofReport (f loaded)) t).report.events =
        concerning (f ⟨path, .archive, code⟩).events := by
  rw [withDirectory] at h ⊢
  by_cases hempty : spec.runtime.isEmpty
  · rw [if_pos hempty] at h
    cases h
  rw [if_neg hempty] at h ⊢
  obtain ⟨s, es, hpacks⟩ := Archive.exists_packs_of_pack_eq_ok h
  rw [hpacks.pack_resultAt, Compose.resultAt_bind (Compose.leavesTree_looking _)] at h
  obtain ⟨code, hcode, h⟩ := Except.bind_eq_ok_iff.mp h
  rw [concerning_pack hpacks]
  refine ⟨code, mt String.isEmpty_iff.mpr hempty, ?_, h, ?_⟩
  · rw [packedCode, hpacks.pack_resultAt, hcode]
  · rw [Compose.bind_apply_ok hcode]
    show concerning ((Code.load (s.addTo t (P.zip.write es)) s.path zipExtension).events ++
      ([.log .debug ("packed action " ++ name ++ " from " ++ path)] ++
        (f ⟨path, .archive, code⟩).events)) = _
    rw [concerning_append, (Code.load_minor _ _ _).concerning_eq_nil, concerning_append]
    rfl

/-- Of the source of an action, nothing is warned of but what goes on with it warns of. -/
theorem concerning_withSource [P : Packer] {f : Option LoadedSource → Report α} {a : α}
    (h : (ctx.withSource name spec fun loaded => Compose.ofReport (f loaded)).resultAt t = .ok a) :
    ∃ loaded, ctx.sourceAt name spec t = .ok loaded ∧ (f loaded).result = .ok a ∧
      concerning (ctx.withSource name spec
        (fun loaded => Compose.ofReport (f loaded)) t).report.events =
        concerning (f loaded).events := by
  rw [Compose.resultAt, withSource_apply] at h
  rw [withSource_apply, sourceAt_eq]
  by_cases hsource : spec.source.isEmpty
  · rw [if_pos hsource] at h ⊢
    rw [if_pos (String.isEmpty_iff.mp hsource)]
    exact ⟨none, rfl, h, rfl⟩
  rw [if_neg hsource] at h ⊢
  rw [if_neg (mt String.isEmpty_iff.mpr hsource), ActionSpec.pathIn]
  cases hdirectory : t.isDirectory (FilePath.join ctx.directory spec.source) with
  | true =>
    rw [hdirectory, if_pos rfl] at h
    rw [if_pos rfl, if_pos rfl]
    obtain ⟨code, hruntime, hcode, hresult, hevents⟩ := concerning_withDirectory h
    refine ⟨some ⟨_, .archive, code⟩, ?_, hresult, hevents⟩
    rw [if_neg hruntime, hcode]
    rfl
  | false =>
    rw [hdirectory, if_neg Bool.false_ne_true] at h
    rw [if_neg Bool.false_ne_true, if_neg Bool.false_ne_true]
    change Compose.resultAt (_ >>= _) t = _ at h
    rw [Compose.resultAt_bind (Compose.leavesTree_looking _)] at h
    obtain ⟨s, hs, h⟩ := Except.bind_eq_ok_iff.mp h
    refine ⟨some s, congrArg (some <$> ·) hs, h, ?_⟩
    rw [Compose.bind_apply_ok hs]
    show concerning ((loadFile name _ spec t).events ++ (f (some s)).events) = _
    rw [concerning_append, (loadFile_minor _ _ _ _).concerning_eq_nil]
    rfl

/-- **Of an action that is composed**, only the runtime and the limits are warned of. -/
theorem concerning_composeAction [P : Packer] {r : ActionRecord}
    (h : (ctx.composeAction package name spec).resultAt t = .ok r) :
    ∃ loaded, ctx.sourceAt name spec t = .ok loaded ∧
      (ctx.actionOf package name spec loaded).result = .ok r ∧
      concerning (ctx.composeAction package name spec t).report.events =
        concerning (ctx.runtimeKind name spec.runtime loaded).events ++
          concerning (actionLimits name spec).events := by
  obtain ⟨loaded, hloaded, hresult, hevents⟩ := concerning_withSource h
  exact ⟨loaded, hloaded, hresult, hevents.trans (concerning_actionOf hresult)⟩

end Context

/-! ## Limits -/

/-- The limits that an action can declare. -/
inductive LimitKind where
  | timeout
  | memorySize
  | logSize
  | concurrentActivations
  | userInvocationRate
  | codeSize
  | parameterSize
  deriving DecidableEq

namespace LimitKind

/-- All limits. -/
def all : List LimitKind :=
  [timeout, memorySize, logSize, concurrentActivations, userInvocationRate, codeSize, parameterSize]

/-- The word for a limit. -/
def word : LimitKind → String
  | timeout => "timeout"
  | memorySize => "memorySize"
  | logSize => "logSize"
  | concurrentActivations => "concurrentActivations"
  | userInvocationRate => "userInvocationRate"
  | codeSize => "codeSize"
  | parameterSize => "parameterSize"

/-- What an action declares as a limit. -/
def declared (limits : LimitsSpec) : LimitKind → Option Int
  | timeout => limits.timeout
  | memorySize => limits.memorySize
  | logSize => limits.logSize
  | concurrentActivations => limits.concurrentActivations
  | userInvocationRate => limits.userInvocationRate
  | codeSize => limits.codeSize
  | parameterSize => limits.parameterSize

/-- The least and the greatest value of a limit that the platform knows. -/
def range? : LimitKind → Option (Int × Int)
  | timeout => some (100, 300000)
  | memorySize => some (128, 512)
  | logSize => some (0, 10)
  | concurrentActivations | userInvocationRate | codeSize | parameterSize => none

/-- What an action gets as a limit. -/
def kept : LimitKind → Limits → Option Int
  | timeout, limits => limits.timeout
  | memorySize, limits => limits.memory
  | logSize, limits => limits.logs
  | concurrentActivations, _ | userInvocationRate, _ | codeSize, _ | parameterSize, _ => none

/-- A limit is declared and not taken.  Of a limit that the platform does not know, zero is none. -/
def Dropped (k : LimitKind) (limits : LimitsSpec) (composed : Option Limits) : Prop :=
  ∃ n, k.declared limits = some n ∧
    if k.range?.isSome then composed.bind k.kept = none else n ≠ 0

/-- The platform allows a value for a limit: the value is within the range of the limit, or zero if
the platform does not know the limit. -/
def Allows (k : LimitKind) (n : Int) : Prop :=
  match k.range? with
  | some (least, greatest) => least ≤ n ∧ n ≤ greatest
  | none => n = 0

/-- Nothing is wrong with a limit: it is not declared, or the platform allows its value. -/
def Sound (k : LimitKind) (limits : LimitsSpec) : Prop :=
  ∀ n, k.declared limits = some n → k.Allows n

/-- What the warnings about a limit start with. -/
def front (k : LimitKind) : String := "limit " ++ k.word ++ " "

/-- The warning about a limit of an action. -/
def events (k : LimitKind) (limits : LimitsSpec) (action : String) : List Event :=
  match k with
  | timeout => LimitBounds.timeout.events action limits.timeout
  | memorySize => LimitBounds.memory.events action limits.memorySize
  | logSize => LimitBounds.logs.events action limits.logSize
  | k => LimitsSpec.unsupportedEvents action (k.word, k.declared limits)

/-- The event is the warning about a limit of an action, with its value if that is told. -/
def Names (k : LimitKind) (action : String) (e : Event) : Prop :=
  ∃ value rest, e = .warning ("limit " ++ k.word ++ value ++ " of action " ++ action ++ rest) ∧
    (value = "" ∨ ∃ n : Int, value = " = " ++ toString n)

variable {k k' : LimitKind} {limits : LimitsSpec} {action : String} {e : Event}

/-- It starts with its words. -/
theorem Names.warnsOf_self (h : k.Names action e) : e.warnsOf k.front = true := by
  have hword := Event.warnsOf_warning k.front (List.prefix_rfl (l := k.front.toList))
  obtain ⟨value, rest, rfl, rfl | ⟨n, rfl⟩⟩ := h
  · have htext : "limit " ++ k.word ++ "" ++ " of action " ++ action ++ rest =
        k.front ++ ("of action " ++ action ++ rest) := by
      rw [show " of action " = " " ++ "of action " from rfl, front]
      simp only [String.append_assoc, String.empty_append]
    rw [htext, hword]
  · have htext : "limit " ++ k.word ++ (" = " ++ toString n) ++ " of action " ++ action ++ rest =
        k.front ++ ("= " ++ toString n ++ " of action " ++ action ++ rest) := by
      rw [show " = " = " " ++ "= " from rfl, front]
      simp only [String.append_assoc]
    rw [htext, hword]

/-- No warning starts with the words of two limits. -/
theorem front_apart (h : k ≠ k') :
    ¬ k.front.toList <+: k'.front.toList ∧ ¬ k'.front.toList <+: k.front.toList := by
  cases k <;> cases k' <;> first | exact absurd rfl h | decide

/-- The warning about a limit is told by its words. -/
theorem Names.warnsOf_front (h : k'.Names action e) : e.warnsOf k.front = decide (k' = k) := by
  by_cases hk : k' = k
  · rw [decide_eq_true hk, ← hk, h.warnsOf_self]
  · rw [decide_eq_false hk, Event.warnsOf_eq_false h.warnsOf_self (front_apart (Ne.symm hk))]

/-- It is one of those of limits. -/
theorem Names.warnsOf_limit (h : k.Names action e) : e.warnsOf "limit " = true := by
  obtain ⟨value, rest, rfl, -⟩ := h
  simp only [String.append_assoc]
  exact Event.warnsOf_warning _ List.prefix_rfl _

/-- A limit that the platform knows is warned of if it is out of its range. -/
theorem bounds_events_cases {b : LimitBounds} (hword : b.name = k.word)
    (hrange : k.range? = some (b.least, b.greatest)) (value : Option Int) :
    (b.events action value = [] ∧ ∀ n, value = some n → k.Allows n) ∨
      ∃ e n, b.events action value = [e] ∧ k.Names action e ∧ value = some n ∧ ¬ k.Allows n := by
  cases value with
  | none => exact .inl ⟨rfl, nofun⟩
  | some n =>
    have hallows : k.Allows n ↔ b.least ≤ n ∧ n ≤ b.greatest := by rw [Allows, hrange]
    by_cases hn : b.least ≤ n ∧ n ≤ b.greatest
    · refine .inl ⟨by rw [LimitBounds.events, LimitBounds.check, if_pos hn], fun m hm => ?_⟩
      obtain rfl := Option.some.inj hm
      exact hallows.mpr hn
    · refine .inr ⟨_, n, by rw [LimitBounds.events, LimitBounds.check, if_neg hn], ?_, rfl,
        mt hallows.mp hn⟩
      refine ⟨" = " ++ toString n, " is outside " ++ toString b.least ++ "..=" ++
        toString b.greatest ++ ", ignoring it", ?_, .inr ⟨n, rfl⟩⟩
      rw [hword]
      simp only [String.append_assoc]

/-- A limit that it does not know is warned of if it is not zero. -/
theorem unsupportedEvents_cases (hrange : k.range? = none) (value : Option Int) :
    (LimitsSpec.unsupportedEvents action (k.word, value) = [] ∧ ∀ n, value = some n → k.Allows n) ∨
      ∃ e n, LimitsSpec.unsupportedEvents action (k.word, value) = [e] ∧ k.Names action e ∧
        value = some n ∧ ¬ k.Allows n := by
  cases value with
  | none => exact .inl ⟨rfl, nofun⟩
  | some n =>
    have hallows : k.Allows n ↔ n = 0 := by rw [Allows, hrange]
    by_cases hn : n = 0
    · refine .inl ⟨by simp [LimitsSpec.unsupportedEvents, hn], fun m hm => ?_⟩
      obtain rfl := Option.some.inj hm
      exact hallows.mpr hn
    · refine .inr ⟨_, n, if_pos (by simpa using hn), ?_, rfl, mt hallows.mp hn⟩
      refine ⟨"", " is not supported and will be ignored", ?_, .inl rfl⟩
      simp only [String.append_assoc, String.empty_append]

/-- **A limit is warned of if something is wrong with it**, and else it is not. -/
theorem events_cases (k : LimitKind) (limits : LimitsSpec) (action : String) :
    (k.events limits action = [] ∧ k.Sound limits) ∨
      ∃ e, k.events limits action = [e] ∧ k.Names action e ∧ ¬ k.Sound limits := by
  have hcases : (k.events limits action = [] ∧ ∀ n, k.declared limits = some n → k.Allows n) ∨
      ∃ e n, k.events limits action = [e] ∧ k.Names action e ∧
        k.declared limits = some n ∧ ¬ k.Allows n := by
    cases k with
    | timeout | memorySize | logSize => exact bounds_events_cases rfl rfl _
    | concurrentActivations | userInvocationRate | codeSize | parameterSize =>
      exact unsupportedEvents_cases rfl _
  exact hcases.imp_right fun ⟨e, n, he, hnames, hn, hallows⟩ =>
    ⟨e, he, hnames, fun hsound => hallows (hsound n hn)⟩

/-- A limit that is within its range is kept. -/
theorem kept_withinBounds {n : Int} (hrange : k.range?.isSome = true)
    (hn : k.declared limits = some n) (hallows : k.Allows n) :
    k.kept limits.withinBounds = some n := by
  have hkept : ∀ b : LimitBounds, k.range? = some (b.least, b.greatest) →
      (b.check (some n)).kept? = some n := by
    intro b hb
    rw [Allows, hb] at hallows
    rw [LimitBounds.check, if_pos hallows, LimitCheck.kept?]
  cases k with
  | timeout =>
    exact (congrArg (fun v => (LimitBounds.timeout.check v).kept?) hn).trans (hkept _ rfl)
  | memorySize =>
    exact (congrArg (fun v => (LimitBounds.memory.check v).kept?) hn).trans (hkept _ rfl)
  | logSize =>
    exact (congrArg (fun v => (LimitBounds.logs.check v).kept?) hn).trans (hkept _ rfl)
  | concurrentActivations | userInvocationRate | codeSize | parameterSize => cases hrange

/-- Limits of which one is kept are not empty. -/
theorem isEmpty_eq_false_of_kept {l : Limits} {n : Int} (h : k.kept l = some n) :
    l.isEmpty = false := by
  cases k with
  | timeout | memorySize | logSize => simp_all [kept, Limits.isEmpty]
  | concurrentActivations | userInvocationRate | codeSize | parameterSize => cases h

/-- Something is wrong with a limit that is not taken. -/
theorem not_sound_of_dropped
    (h : k.Dropped limits (some limits.withinBounds |>.filter fun l => !l.isEmpty)) :
    ¬ k.Sound limits := by
  obtain ⟨n, hn, hdropped⟩ := h
  intro hsound
  have hallows := hsound n hn
  split at hdropped
  next hrange =>
    have hkept := kept_withinBounds hrange hn hallows
    rw [Option.filter_some, isEmpty_eq_false_of_kept hkept] at hdropped
    exact absurd (hkept.symm.trans hdropped) (Option.some_ne_none n)
  next hrange =>
    rw [Allows, Option.not_isSome_iff_eq_none.mp hrange] at hallows
    exact hdropped hallows

end LimitKind

namespace LimitsSpec

/-- The warnings about limits are told limit by limit. -/
theorem events_eq_flatMap (limits : LimitsSpec) (action : String) :
    limits.events action = LimitKind.all.flatMap fun k => k.events limits action := by
  simp [events, LimitKind.all, LimitKind.events, unsupported, LimitKind.word, LimitKind.declared]

/-- **The warnings about one limit** among those about all. -/
theorem filter_events (limits : LimitsSpec) (action : String) (k : LimitKind) :
    (limits.events action).filter (Event.warnsOf k.front) = k.events limits action := by
  have hfilter : ∀ k' : LimitKind, (k'.events limits action).filter (Event.warnsOf k.front) =
      if k' = k then k.events limits action else [] := by
    intro k'
    obtain ⟨hnil, -⟩ | ⟨e, he, hnames, -⟩ := k'.events_cases limits action
    · split
      next hk => rw [← hk, hnil, List.filter_nil]
      next => rw [hnil, List.filter_nil]
    · rw [he, List.filter_singleton, hnames.warnsOf_front]
      by_cases hk : k' = k
      · rw [decide_eq_true hk, if_pos hk, ← hk, he]
        rfl
      · rw [decide_eq_false hk, if_neg hk]
        rfl
  rw [events_eq_flatMap, List.filter_flatMap]
  simp only [hfilter]
  cases k <;> simp [LimitKind.all]

/-- All of them are warnings of limits. -/
theorem exists_names_of_mem_events {limits : LimitsSpec} {action : String} {e : Event}
    (h : e ∈ limits.events action) : ∃ k : LimitKind, k.Names action e ∧ ¬ k.Sound limits := by
  rw [events_eq_flatMap] at h
  obtain ⟨k, -, hk⟩ := List.mem_flatMap.mp h
  obtain ⟨hnil, -⟩ | ⟨e', he', hnames, hsound⟩ := k.events_cases limits action
  · rw [hnil] at hk
    cases hk
  · rw [he'] at hk
    exact ⟨k, List.mem_singleton.mp hk ▸ hnames, hsound⟩

end LimitsSpec

/-! ## Runtimes -/

namespace Context

variable {ctx : Context} {package name : String} {spec : ActionSpec} {t : FileTree}

/-- Of a runtime nothing else is told than warnings of runtimes. -/
theorem runtimeKind_warnsOf {declared : String} {loaded : Option LoadedSource} {e : Event}
    (h : e ∈ (ctx.runtimeKind name declared loaded).events) : e.warnsOf "runtime " = true := by
  have hdeclared := Event.warnsOf_warning "runtime " (List.prefix_rfl (l := "runtime ".toList))
  have hchanged : ∀ rest,
      (Event.warning ("runtime of action " ++ rest)).warnsOf "runtime " = true :=
    Event.warnsOf_warning _ (by decide)
  have hevents : ∀ source decision, ∀ e ∈ runtimeEvents name declared source decision,
      e.warnsOf "runtime " = true := by
    intro source decision
    cases decision with
    | declared | invalid => exact nofun
    | declaredOverMismatch => simp [runtimeEvents, String.append_assoc, hdeclared]
    | inferredOverMismatch => simp [runtimeEvents, String.append_assoc, hdeclared, hchanged]
    | inferredOverUnsupported =>
      simp only [runtimeEvents]
      split <;> simp [String.append_assoc, hdeclared, hchanged]
  rw [runtimeKind] at h
  split at h
  · cases h
  · exact hevents _ _ e h

/-- The warnings of the limits of an action. -/
theorem actionLimits_events (name : String) (spec : ActionSpec) :
    (actionLimits name spec).events = (spec.limits.map fun l => l.events name).getD [] := by
  rw [actionLimits]
  cases spec.limits <;> rfl

/-- Each is about a limit with which something is wrong. -/
theorem exists_names_of_mem_actionLimits {e : Event} (h : e ∈ (actionLimits name spec).events) :
    ∃ limits, ∃ k : LimitKind, spec.limits = some limits ∧ k.Names name e ∧ ¬ k.Sound limits := by
  rw [actionLimits_events] at h
  cases hlimits : spec.limits with
  | none =>
    rw [hlimits] at h
    cases h
  | some limits =>
    rw [hlimits] at h
    obtain ⟨k, hk⟩ := LimitsSpec.exists_names_of_mem_events h
    exact ⟨limits, k, rfl, hk⟩

/-- **What is told of the runtime and the limits of an action**, among all that is told. -/
theorem exists_concerning_composeAction [P : Packer] {r : ActionRecord}
    (h : (ctx.composeAction package name spec).resultAt t = .ok r) :
    ∃ loaded kind, ctx.sourceAt name spec t = .ok loaded ∧
      (ctx.runtimeKind name spec.runtime loaded).result = .ok kind ∧
      r.action.exec = exec? loaded kind spec.main ∧
      r.action.limits = spec.limits.bind (fun limits =>
        some limits.withinBounds |>.filter fun l => !l.isEmpty) ∧
      concerning (ctx.composeAction package name spec t).report.events =
        (ctx.runtimeKind name spec.runtime loaded).events ++ (actionLimits name spec).events := by
  obtain ⟨loaded, hloaded, hresult, hevents⟩ := concerning_composeAction h
  rw [actionOf_result] at hresult
  obtain ⟨kind, hkind, hresult⟩ := Except.bind_eq_ok_iff.mp hresult
  obtain ⟨parameters, -, hresult⟩ := Except.bind_eq_ok_iff.mp hresult
  obtain ⟨_, -, hresult⟩ := Except.bind_eq_ok_iff.mp hresult
  obtain rfl := Except.ok.inj hresult
  refine ⟨loaded, kind, hloaded, hkind, rfl, rfl, ?_⟩
  rw [hevents, concerning, concerning, List.filter_eq_self.mpr fun e he => ?_,
    List.filter_eq_self.mpr fun e he => ?_]
  · obtain ⟨_, k, -, hnames, -⟩ := exists_names_of_mem_actionLimits he
    rw [Event.concerns, hnames.warnsOf_limit, Bool.or_true]
  · rw [Event.concerns, runtimeKind_warnsOf he, Bool.true_or]

/-- It is decided that the declared runtime is taken if it is taken without a mismatch. -/
theorem decideRuntime_eq_declared_iff {source : Source} {declared : String} (strict : Bool) :
    decideRuntime source declared strict = .declared ↔ source.Keeps declared false := by
  rw [keeps_iff_decideRuntime]
  cases source with
  | stub | archive => cases hs : RuntimeFamily.supports declared <;> simp [decideRuntime, hs]
  | file ext =>
    rw [decideRuntime, decideRuntime]
    split
    · simp
    split
    · simp
    · cases strict <;> simp

/-- Nothing is told of a runtime that is not declared, or taken without a mismatch. -/
theorem runtimeKind_events_eq_nil {declared : String} {loaded : Option LoadedSource}
    (h : declared = "" ∨ (sourceOf loaded).Keeps declared false) :
    (ctx.runtimeKind name declared loaded).events = [] := by
  rw [runtimeKind]
  split
  · rfl
  next hempty =>
    have hkeeps := h.resolve_left (mt String.isEmpty_iff.mpr hempty)
    have hdecision := (decideRuntime_eq_declared_iff ctx.settings.strict).mpr hkeeps
    rw [hdecision]
    rfl

/-- If an action does not run in its declared runtime, a warning tells of that. -/
theorem exists_warning_of_kind_ne {declared main : String} {loaded : Option LoadedSource}
    {kind : Option String} (hkind : (ctx.runtimeKind name declared loaded).result = .ok kind)
    (hdeclared : declared ≠ "")
    (hne : (exec? loaded kind main).map (·.kind) ≠ some declared) :
    ∃ rest, .warning ("runtime " ++ declared ++ " of action " ++ name ++ rest) ∈
      (ctx.runtimeKind name declared loaded).events := by
  rw [runtimeKind, if_neg (mt String.isEmpty_iff.mp hdeclared)] at hkind ⊢
  dsimp only at hkind ⊢
  have htaken : ∀ loaded, (exec? loaded (some declared) main).map (·.kind) = some declared := by
    rintro (_ | s) <;> rfl
  cases hdecision : decideRuntime (sourceOf loaded) declared ctx.settings.strict with
  | declared | declaredOverMismatch =>
    rw [hdecision] at hkind
    cases hkind
    exact absurd (htaken loaded) hne
  | invalid =>
    rw [hdecision] at hkind
    cases hkind
  | inferredOverMismatch => exact ⟨_, List.mem_cons_self⟩
  | inferredOverUnsupported => exact ⟨_, List.mem_cons_self⟩

/-- **What an action declares is taken, or a warning tells that it is not.**  If it does not run in
its declared runtime, a warning tells of both.  For each limit that is declared and not taken, there
is one warning that starts with the words for the limit, and it names the action.  There is no
warning of a runtime or of a limit if no runtime is declared, or it is taken without a mismatch, and
nothing is wrong with any limit. -/
theorem composeAction_warns [P : Packer] {r : ActionRecord}
    (h : (ctx.composeAction package name spec).resultAt t = .ok r) :
    (spec.runtime ≠ "" → r.action.exec.map (·.kind) ≠ some spec.runtime →
      ∃ rest, .warning ("runtime " ++ spec.runtime ++ " of action " ++ name ++ rest) ∈
        (ctx.composeAction package name spec t).report.events) ∧
    (∀ limits (k : LimitKind), spec.limits = some limits → k.Dropped limits r.action.limits →
      ∃ e, (ctx.composeAction package name spec t).report.events.filter (Event.warnsOf k.front) =
        [e] ∧ k.Names name e) ∧
    (spec.runtime = "" ∨ (spec.sourceIn ctx.directory t).Keeps spec.runtime false →
      (∀ limits (k : LimitKind), spec.limits = some limits → k.Sound limits) →
      ∀ e ∈ (ctx.composeAction package name spec t).report.events,
        e.warnsOf "runtime " = false ∧ e.warnsOf "limit " = false) := by
  obtain ⟨loaded, kind, hloaded, hkind, hexec, hcomposed, hevents⟩ :=
    exists_concerning_composeAction h
  refine ⟨fun hruntime hne => ?_, fun limits k hlimits hdropped => ?_,
    fun hruntime hsound e he => ?_⟩
  · obtain ⟨rest, hrest⟩ := exists_warning_of_kind_ne hkind hruntime (hexec ▸ hne)
    exact ⟨rest, (List.mem_filter.mp (hevents ▸ List.mem_append_left _ hrest)).1⟩
  · rw [hcomposed, hlimits, Option.bind_some] at hdropped
    have hruntimes : (ctx.runtimeKind name spec.runtime loaded).events.filter
        (Event.warnsOf k.front) = [] := by
      refine List.filter_eq_nil_iff.mpr fun e he => Bool.eq_false_iff.mp ?_
      exact Event.warnsOf_eq_false (runtimeKind_warnsOf he) (by cases k <;> decide)
    rw [← filter_concerning (by cases k <;> decide), hevents, List.filter_append, hruntimes,
      List.nil_append, actionLimits_events, hlimits, Option.map_some, Option.getD_some,
      limits.filter_events]
    obtain ⟨-, hk⟩ | ⟨e, he, hnames, -⟩ := k.events_cases limits name
    · exact absurd hk (LimitKind.not_sound_of_dropped hdropped)
    · exact ⟨e, he, hnames⟩
  · have hkindNil : (ctx.runtimeKind name spec.runtime loaded).events = [] :=
      runtimeKind_events_eq_nil (by rwa [sourceOf_of_sourceAt hloaded])
    have hlimitsNil : (actionLimits name spec).events = [] := by
      refine List.eq_nil_iff_forall_not_mem.mpr fun e he => ?_
      obtain ⟨limits, k, hlimits, -, hk⟩ := exists_names_of_mem_actionLimits he
      exact hk (hsound limits k hlimits)
    rw [hkindNil, hlimitsNil, List.append_nil] at hevents
    have hconcerns := List.filter_eq_nil_iff.mp hevents e he
    rwa [Bool.not_eq_true, Event.concerns, Bool.or_eq_false_iff] at hconcerns

attribute [local instance] onePacker

/-- The action in an unknown runtime, of whose limits one is out of its range, is composed, and both
are warned of. -/
theorem composeAction_rustAction_warns :
    ∃ r, (composeAction ⟨{}, {}, "", none⟩ "shop" "pay" rustAction).resultAt rustTree = .ok r ∧
      (∃ rest, .warning ("runtime rust:1.34 of action pay" ++ rest) ∈
        (composeAction ⟨{}, {}, "", none⟩ "shop" "pay" rustAction rustTree).report.events) ∧
      ∃ e, (composeAction ⟨{}, {}, "", none⟩ "shop" "pay" rustAction rustTree).report.events.filter
        (Event.warnsOf "limit timeout ") = [e] ∧ LimitKind.timeout.Names "pay" e := by
  have hloaded : (⟨{}, {}, "", none⟩ : Context).sourceAt "pay" rustAction rustTree = .ok _ :=
    sourceAt_ofTexts rfl rfl isName_rustAction rfl (by decide +kernel)
  have hpay : (composeAction _ "shop" "pay" rustAction).resultAt rustTree = .ok _ :=
    (composeAction_eq_ok_iff _).mpr ⟨_, _, _, hloaded, rfl, rfl, ⟨_, rfl⟩, rfl⟩
  obtain ⟨hruntime, hlimits, -⟩ := composeAction_warns hpay
  obtain ⟨rest, hrest⟩ := hruntime (by decide) (by decide)
  exact ⟨_, hpay, ⟨rest, hrest⟩, hlimits _ .timeout rfl ⟨50, rfl, rfl⟩⟩

end Context

end DeployPlan
