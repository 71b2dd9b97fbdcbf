import Mathlib.Data.List.DropRight
import DeployPlan.Compose.Plan
import DeployPlan.Proofs.Compose.Entity

/-!
# Messages and archives in turn

Triggers and rules leave their packages, and of two with one name the later stays; a warning tells
of it.  Nothing else that happens while the sections of a package are composed reads like that
warning, so that the warnings can be counted in the log.  Besides messages, archives come and go
there, one after another.

## Main definitions

* `DeployPlan.SharedKind` — triggers and rules.
* `Event.Repeats` — the warning about a name that is taken already.
* `DeployPlan.repetitions` — the number of these warnings in a log.
* `Event.Minor`, `Report.Tells` — messages that tell nothing about declarations, and reports of
  events of a kind.
* `Report.Quiet`, `Compose.Quiet` — all events are messages, and none is such a warning.
* `DeployPlan.InTurn`, `Compose.Tells` — the events are messages of a kind and archives, each of
  which is made in the tree as it was and gone before the next.

## Main results

* `Report.Quiet.bind`, `Quiet.mapM`, `Compose.Quiet.bind`, `Compose.Tells.bind`, `Tells.mapM`,
  `Archive.pack_tells` — the rules for reports that go on.
* `Context.composePackage_quiet`, `composeActions_tells` and so on — composing the sections of a
  package is quiet, but for archives.
-/

set_option autoImplicit false

namespace DeployPlan

variable {α β : Type}

/-! ## The warnings -/

/-- The kinds of entities that leave their packages. -/
inductive SharedKind where
  | trigger
  | rule
  deriving DecidableEq

namespace SharedKind

/-- The word for a kind. -/
def word : SharedKind → String
  | .trigger => "trigger"
  | .rule => "rule"

/-- What stands before the name in a warning. -/
def front (kind : SharedKind) : String := kind.word ++ " "

end SharedKind

namespace Event

/-- The event is the warning about an entity of a kind whose name is taken already. -/
def Repeats (kind : SharedKind) (e : Event) : Prop :=
  ∃ name, e = Plan.repeatedName kind.word name

/-- What stands after the name in the warning. -/
def repeatedEnd : String := " is declared in more than one package, keeping the last"

/-- What stands between the ends of the warning. -/
def repeated (kind : SharedKind) : Event → String
  | .log _ text =>
    String.ofList ((text.toList.drop kind.front.toList.length).rdrop repeatedEnd.toList.length)
  | .archiveAdded _ | .archiveRemoved _ => ""

/-- That is the name. -/
theorem repeated_repeatedName (kind : SharedKind) (name : String) :
    repeated kind (Plan.repeatedName kind.word name) = name := by
  have htext : (kind.word ++ " " ++ name ++ repeatedEnd).toList =
      kind.front.toList ++ (name.toList ++ repeatedEnd.toList) := by
    simp only [SharedKind.front, String.toList_append, List.append_assoc]
  show String.ofList (((kind.word ++ " " ++ name ++ repeatedEnd).toList.drop _).rdrop _) = name
  rw [htext, List.drop_left, List.rdrop_append_length, String.ofList_toList]

instance (kind : SharedKind) : DecidablePred (Repeats kind) := fun e =>
  decidable_of_iff (e = Plan.repeatedName kind.word (repeated kind e))
    ⟨fun h => ⟨_, h⟩, fun ⟨name, h⟩ => by rw [h, repeated_repeatedName]⟩

/-- The letters that a warning starts with. -/
theorem take_repeatedName (kind : SharedKind) (rest : String) :
    (kind.word ++ rest).toList.take 3 = kind.word.toList.take 3 := by
  have hlong : 3 ≤ kind.word.toList.length := by cases kind <;> decide
  rw [String.toList_append, List.take_append_of_le_length hlong]

/-- The warning tells of its own kind alone. -/
theorem repeats_repeatedName_iff {kind kind' : SharedKind} {name : String} :
    (Plan.repeatedName kind'.word name).Repeats kind ↔ kind' = kind := by
  constructor
  · rintro ⟨name', hname⟩
    have htext : kind'.word ++ " " ++ name ++ repeatedEnd =
        kind.word ++ " " ++ name' ++ repeatedEnd := (Event.log.inj hname).2
    have hstart := congrArg (fun s : String => s.toList.take 3) htext
    simp only [String.append_assoc, take_repeatedName] at hstart
    cases kind' <;> cases kind <;> first | rfl | exact absurd hstart (by decide)
  · rintro rfl
    exact ⟨name, rfl⟩

/-- The event is a message for the log. -/
def IsMessage (e : Event) : Prop := ∃ level text, e = log level text

/-- The event is a message that tells of no name that is taken already. -/
structure Quiet (e : Event) : Prop where
  isMessage : e.IsMessage
  tellsNoName : ∀ kind, ¬ e.Repeats kind

/-- Messages that are no warnings tell of none. -/
theorem quiet_log {level : Level} (h : level ≠ .warn) (text : String) : (log level text).Quiet := by
  refine ⟨⟨level, text, rfl⟩, ?_⟩
  rintro kind ⟨name, hname⟩
  exact h (Event.log.inj hname).1

/-- Nor does a warning that starts with other letters. -/
theorem quiet_warning (front : String)
    (h : 3 ≤ front.toList.length ∧ ∀ kind ∈ [SharedKind.trigger, .rule],
      front.toList.take 3 ≠ kind.word.toList.take 3) (rest : String) :
    (warning (front ++ rest)).Quiet := by
  refine ⟨⟨_, _, rfl⟩, ?_⟩
  rintro kind ⟨name, hname⟩
  have htext : front ++ rest = kind.word ++ " " ++ name ++ repeatedEnd := (Event.log.inj hname).2
  have hstart := congrArg (fun s : String => s.toList.take 3) htext
  simp only [String.append_assoc, take_repeatedName] at hstart
  rw [String.toList_append, List.take_append_of_le_length h.1] at hstart
  exact h.2 kind (by cases kind <;> decide) hstart

/-- Nor does a warning that ends with another letter. -/
theorem quiet_warning_of_getLast? {text last : String} (hne : last.toList ≠ [])
    (h : last.toList.getLast? ≠ repeatedEnd.toList.getLast?) : (warning (text ++ last)).Quiet := by
  have hlast : ∀ front back : String, back.toList ≠ [] →
      (front ++ back).toList.getLast? = back.toList.getLast? := by
    intro front back hback
    rw [String.toList_append, List.getLast?_append_of_ne_nil _ hback]
  refine ⟨⟨_, _, rfl⟩, ?_⟩
  rintro kind ⟨name, hname⟩
  have htext : text ++ last = kind.word ++ " " ++ name ++ repeatedEnd := (Event.log.inj hname).2
  refine h ?_
  rw [← hlast text last hne, htext, hlast _ repeatedEnd (by decide)]

/-- A message that tells nothing about declarations: it is no warning, or it warns of a part of a
value, or of a directory, that is left out. -/
inductive Minor : Event → Prop
  | log {level : Level} (h : level ≠ .warn) (text : String) : Minor (.log level text)
  | dropped (key : Yaml.Value) : Minor (droppedKey key)
  | skipped (name : String) :
      Minor (warning ("skipping unsupported file type in action directory: " ++ name))

/-- So it tells of no name that is taken already. -/
theorem Minor.quiet {e : Event} (h : e.Minor) : e.Quiet := by
  cases h with
  | log h text => exact quiet_log h text
  | dropped key => exact quiet_warning "dropping non-scalar mapping key " (by decide) _
  | skipped name =>
    exact quiet_warning "skipping unsupported file type in action directory: " (by decide) _

end Event

/-- The number of warnings about entities of a kind whose names were taken already. -/
def repetitions (kind : SharedKind) (events : List Event) : Nat :=
  events.countP fun e => e.Repeats kind

/-- Warnings in a log and in what follows it. -/
@[simp] theorem repetitions_append (kind : SharedKind) (events events' : List Event) :
    repetitions kind (events ++ events') = repetitions kind events + repetitions kind events' :=
  List.countP_append

/-- There are no warnings in a quiet log. -/
theorem repetitions_of_quiet {kind : SharedKind} {events : List Event}
    (h : ∀ e ∈ events, e.Quiet) : repetitions kind events = 0 :=
  List.countP_eq_zero.mpr fun e he => by simpa using (h e he).tellsNoName kind

/-! ## Quiet reports -/

namespace Report

/-- A report all of whose events are of a kind. -/
def Tells (P : Event → Prop) (r : Report α) : Prop := ∀ e ∈ r.events, P e

section Tells

variable {P Q : Event → Prop}

/-- A result alone tells nothing. -/
theorem tells_pure (a : α) : (pure a : Report α).Tells P := nofun

/-- Nor does a result or a failure. -/
theorem tells_ofExcept (result : Except Failure α) : (ofExcept result).Tells P := nofun

/-- Nor does a failure. -/
theorem tells_fail (failure : Failure) : (fail failure : Report α).Tells P := nofun

/-- What is told is of each wider kind, too. -/
theorem Tells.mono {r : Report α} (h : r.Tells P) (hPQ : ∀ e, P e → Q e) : r.Tells Q :=
  fun e he => hPQ e (h e he)

/-- Going on tells what both parts do. -/
theorem Tells.bind {r : Report α} {f : α → Report β} (hr : r.Tells P) (hf : ∀ a, (f a).Tells P) :
    (r >>= f).Tells P := by
  show (Report.bind r f).Tells P
  rw [Report.bind]
  split
  · rename_i a _
    exact List.forall_mem_append.mpr ⟨hr, hf a⟩
  · exact hr

/-- Going on along a list tells what the steps do. -/
theorem Tells.foldlM {f : β → α → Report β} {b : β} {l : List α} (h : ∀ b a, (f b a).Tells P) :
    (l.foldlM f b).Tells P := by
  induction l generalizing b with
  | nil => exact tells_pure b
  | cons a l ih =>
    rw [List.foldlM_cons]
    exact (h b a).bind fun _ => ih

/-- A list tells what its items do. -/
theorem Tells.mapM {f : α → Report β} {l : List α} (h : ∀ a, (f a).Tells P) :
    (l.mapM f).Tells P := by
  induction l with
  | nil => exact tells_pure []
  | cons a l ih =>
    rw [List.mapM_cons]
    exact (h a).bind fun b => ih.bind fun l' => tells_pure _

end Tells

/-- A report of messages, none of which is a warning about a name that is taken already. -/
def Quiet (r : Report α) : Prop := ∀ e ∈ r.events, e.Quiet

/-- A report of minor messages is one. -/
theorem Tells.quiet {r : Report α} (h : r.Tells Event.Minor) : r.Quiet :=
  h.mono fun _ => Event.Minor.quiet

/-- A result alone is quiet. -/
theorem quiet_pure (a : α) : (pure a : Report α).Quiet := nofun

/-- So is a result or a failure. -/
theorem quiet_ofExcept (result : Except Failure α) : (ofExcept result).Quiet := nofun

/-- So is a failure. -/
theorem quiet_fail (failure : Failure) : (fail failure : Report α).Quiet := nofun

/-- So is a message that is no warning. -/
theorem quiet_log {level : Level} (h : level ≠ .warn) (text : String) : (log level text).Quiet :=
  List.forall_mem_singleton.mpr (Event.quiet_log h text)

/-- Going on is quiet if both parts are. -/
theorem Quiet.bind {r : Report α} {f : α → Report β} (hr : r.Quiet) (hf : ∀ a, (f a).Quiet) :
    (r >>= f).Quiet :=
  Tells.bind hr hf

/-- A list is quiet if each item is. -/
theorem Quiet.mapM {f : α → Report β} {l : List α} (h : ∀ a, (f a).Quiet) : (l.mapM f).Quiet :=
  Tells.mapM h

end Report

namespace Compose

/-- The same over every tree. -/
def Quiet (c : Compose α) : Prop := ∀ t, (c t).report.Quiet

/-- A quiet report is quiet over every tree. -/
theorem quiet_ofReport {r : Report α} (h : r.Quiet) : (ofReport r).Quiet := fun _ => h

/-- So is a result. -/
theorem quiet_pure (a : α) : (pure a : Compose α).Quiet := fun _ => Report.quiet_pure a

/-- What looks at the tree is quiet if its report is, whatever the tree. -/
theorem quiet_looking {f : FileTree → Report α} (h : ∀ t, (f t).Quiet) : (looking f).Quiet := h

/-- Going on is quiet if both parts are. -/
theorem Quiet.bind {c : Compose α} {f : α → Compose β} (hc : c.Quiet) (hf : ∀ a, (f a).Quiet) :
    (c >>= f).Quiet := by
  intro t
  cases h : c.resultAt t with
  | ok a =>
    rw [bind_apply_ok h]
    exact List.forall_mem_append.mpr ⟨hc t, hf a _⟩
  | error failure =>
    rw [bind_apply_error h]
    exact hc t

end Compose

/-! ## Archives in turn -/

/-- **Events of which the archives come in turn**: messages of a kind, and archives of the
directories of actions.  Each archive finds the tree as it was before all, and what is told first
while it is there is what its directory looks like with this archive alone.  It is gone before
anything else happens than messages. -/
inductive InTurn [Host] (P : Event → Prop) (t : FileTree) : List Event → Prop
  | done : InTurn P t []
  | message {e : Event} {es : List Event} (he : P e) (hes : InTurn P t es) : InTurn P t (e :: es)
  | archive {package action dir : String} {s : ScratchFile} {told es : List Event}
      (hchoose : ScratchFile.choose (P := Host.packer package action) t dir = .ok s)
      (htold : ∀ e ∈ told, P e)
      (hentries : (Archive.entriesAt (P := Host.packer package action)
        (s.addTo t (Packer.found (P := Host.packer package action))) dir s).events <+: told)
      (hes : InTurn P t es) :
      InTurn P t ((.archiveAdded s.path :: told) ++ .archiveRemoved s.path :: es)

namespace InTurn

variable [Host] {P Q : Event → Prop} {t : FileTree} {es es' : List Event}

/-- Messages without an archive. -/
theorem of_forall (h : ∀ e ∈ es, P e) : InTurn P t es := by
  induction es with
  | nil => exact .done
  | cons e es ih =>
    obtain ⟨he, hes⟩ := List.forall_mem_cons.mp h
    exact .message he (ih hes)

/-- Events before others. -/
theorem append (h : InTurn P t es) (h' : InTurn P t es') : InTurn P t (es ++ es') := by
  induction h with
  | done => exact h'
  | message he _ ih => exact .message he ih
  | archive hchoose htold hentries _ ih =>
    rw [List.append_assoc, List.cons_append]
    exact .archive hchoose htold hentries ih

/-- Messages of a wider kind. -/
theorem mono (h : InTurn P t es) (hPQ : ∀ e, P e → Q e) : InTurn Q t es := by
  induction h with
  | done => exact .done
  | message he _ ih => exact .message (hPQ _ he) ih
  | archive hchoose htold hentries _ ih =>
    exact .archive hchoose (fun e he => hPQ e (htold e he)) hentries ih

/-- No warning tells of a name that is taken, if all messages are quiet. -/
theorem repetitions_eq_zero (h : InTurn Event.Quiet t es) (kind : SharedKind) :
    repetitions kind es = 0 := by
  have hcons : ∀ {e es}, ¬ e.Repeats kind → repetitions kind (e :: es) = repetitions kind es :=
    fun he => List.countP_cons_of_neg (by simpa using he)
  induction h with
  | done => rfl
  | message he _ ih => rw [hcons (he.tellsNoName kind), ih]
  | @archive _ _ _ s told es _ htold _ _ ih =>
    have hadded : ¬ (Event.archiveAdded s.path).Repeats kind := nofun
    have hremoved : ¬ (Event.archiveRemoved s.path).Repeats kind := nofun
    rw [repetitions_append, hcons hadded, hcons hremoved, ih, repetitions_of_quiet htold]

end InTurn

namespace Compose

variable [Host] {P : Event → Prop}

/-- What is told over every tree are messages of a kind, and archives in turn. -/
def Tells (P : Event → Prop) (c : Compose α) : Prop := ∀ t, InTurn P t (c t).report.events

/-- Messages without an archive. -/
theorem Quiet.tells {c : Compose α} (h : c.Quiet) : c.Tells Event.Quiet := fun t => .of_forall (h t)

/-- The same behind a report. -/
theorem tells_ofReport {r : Report α} (h : ∀ e ∈ r.events, P e) : (ofReport r).Tells P :=
  fun _ => .of_forall h

/-- Going on tells what both parts do, if the first leaves the tree as it was. -/
theorem Tells.bind {c : Compose α} {f : α → Compose β} (hc : c.Tells P) (hleaves : c.LeavesTree)
    (hf : ∀ a, (f a).Tells P) : (c >>= f).Tells P := by
  intro t
  cases h : c.resultAt t with
  | ok a =>
    rw [bind_apply_ok h, hleaves t]
    exact (hc t).append (hf a t)
  | error failure =>
    rw [bind_apply_error h]
    exact hc t

/-- The same behind a report. -/
theorem tells_liftM_bind {r : Report α} {f : α → Compose β} (h : ∀ e ∈ r.events, P e)
    (hf : ∀ a, (f a).Tells P) : ((liftM r : Compose α) >>= f).Tells P :=
  (tells_ofReport h).bind (leavesTree_ofReport r) hf

/-- A list tells what its items do. -/
theorem Tells.mapM {f : α → Compose β} {l : List α} (h : ∀ a, (f a).Tells P)
    (hleaves : ∀ a, (f a).LeavesTree) : (l.mapM f).Tells P := by
  induction l with
  | nil => exact tells_ofReport nofun
  | cons a l ih =>
    rw [List.mapM_cons]
    refine (h a).bind (hleaves a) fun b => ?_
    exact ih.bind (.mapM fun a _ => hleaves a) fun l' => tells_ofReport nofun

end Compose

/-! ## Values, parameters and annotations -/

/-- What is told while a value is resolved is minor. -/
theorem Yaml.Value.resolveEvents_minor (vars : Variables) (v : Yaml.Value) :
    ∀ e ∈ v.resolveEvents vars, e.Minor := by
  refine List.forall_mem_append.mpr ⟨?_, ?_⟩ <;> rw [List.forall_mem_map]
  · exact fun name _ => .log (by decide) _
  · exact fun key _ => .dropped key

/-- So it is for texts. -/
theorem Interpolation.resolve_minor (vars : Variables) (s : String) :
    (Interpolation.resolve vars s).Tells Event.Minor :=
  List.forall_mem_map.mpr fun _ _ => .log (by decide) _

/-- They are resolved quietly. -/
theorem Interpolation.resolve_quiet (vars : Variables) (s : String) :
    (Interpolation.resolve vars s).Quiet :=
  (resolve_minor vars s).quiet

/-- So it is for parameters. -/
theorem ParamSpec.resolve_minor (vars : Variables) (path name : String) (spec : ParamSpec) :
    (spec.resolve vars path name).Tells Event.Minor := by
  cases spec with
  | literal v => exact v.resolveEvents_minor vars
  | declared d =>
    rw [ParamSpec.resolve, ParamDeclaration.resolve]
    refine (Report.tells_ofExcept _).bind fun type => ?_
    cases d.given? with
    | none => exact (Report.tells_pure _).bind fun raw => Report.tells_ofExcept _
    | some v =>
      exact Report.Tells.bind (v.resolveEvents_minor vars) fun raw => Report.tells_ofExcept _

namespace Context

variable (ctx : Context)

/-- Parameters are resolved with minor messages alone. -/
theorem parameters_minor (inputs : KeyMap ParamSpec) :
    (ctx.parameters inputs).Tells Event.Minor := by
  rw [parameters, resolveParams]
  refine Report.Tells.bind (Report.Tells.mapM fun e => ?_) fun resolved => Report.tells_pure _
  exact (e.2.resolve_minor ctx.vars ctx.path e.1).bind fun v => Report.tells_pure _

/-- No name is taken while parameters are resolved. -/
theorem parameters_quiet (inputs : KeyMap ParamSpec) : (ctx.parameters inputs).Quiet :=
  (ctx.parameters_minor inputs).quiet

/-- Annotations are resolved with minor messages alone. -/
theorem annotations_minor (declared : KeyMap Yaml.Value) :
    (ctx.annotations declared).Tells Event.Minor := by
  intro event hevent
  obtain ⟨e, -, he⟩ := List.mem_flatMap.mp hevent
  exact e.2.resolveEvents_minor ctx.vars event he

/-- No name is taken while annotations are resolved. -/
theorem annotations_quiet (declared : KeyMap Yaml.Value) : (ctx.annotations declared).Quiet :=
  (ctx.annotations_minor declared).quiet

/-- A namespace is resolved with minor messages alone. -/
theorem namespaceOr_minor (declared : String) : (ctx.namespaceOr declared).Tells Event.Minor := by
  rw [namespaceOr]
  split
  · exact Report.tells_pure _
  · exact Interpolation.resolve_minor _ _

/-- No name is taken while a namespace is resolved. -/
theorem namespaceOr_quiet (declared : String) : (ctx.namespaceOr declared).Quiet :=
  (ctx.namespaceOr_minor declared).quiet

/-! ## Entities without a source -/

/-- The warnings about a package tell of nothing else. -/
theorem packageEvents_quiet (name : String) (spec : PackageSpec) :
    ∀ e ∈ packageEvents name spec, e.Quiet := by
  have htext := Event.quiet_warning "package " (by decide)
  rw [packageEvents]
  simp only [String.append_assoc, List.forall_mem_append]
  refine ⟨?_, ?_⟩ <;> repeat' split
  all_goals simp [htext]

/-- Packages are composed quietly. -/
theorem composePackage_quiet (name : String) (spec : PackageSpec) :
    (ctx.composePackage name spec).Quiet := by
  rw [composePackage]
  refine Report.Quiet.bind (packageEvents_quiet name spec) fun _ => ?_
  refine (ctx.parameters_quiet _).bind fun parameters => ?_
  refine (ctx.annotations_quiet _).bind fun annotations => ?_
  exact (ctx.namespaceOr_quiet _).bind fun ns => Report.quiet_pure _

/-- So are sequences. -/
theorem composeSequence_quiet (package name : String) (spec : SequenceSpec) :
    (ctx.composeSequence package name spec).Quiet := by
  have hwarnings : ∀ e ∈ (Reference.warnings spec.actions).map Event.warning, e.Quiet := by
    simp only [Reference.warnings, List.forall_mem_map, String.append_assoc]
    exact fun _ _ => Event.quiet_warning "ignoring empty element in sequence list '" (by decide) _
  rw [composeSequence]
  refine (ctx.annotations_quiet _).bind fun annotations => ?_
  exact Report.Quiet.bind hwarnings fun _ => Report.quiet_pure _

/-- So are triggers, whose warnings end in other words. -/
theorem composeTrigger_quiet (name : String) (spec : TriggerSpec) :
    (ctx.composeTrigger name spec).Quiet := by
  have hsource : ∀ e ∈ sourceEvents name spec, e.Quiet := by
    rw [sourceEvents]
    split
    · exact nofun
    · exact List.forall_mem_singleton.mpr
        (Event.quiet_warning_of_getLast? (by decide) (by decide))
  have hfeed : ∀ annotations, ∀ e ∈ feedEvents name spec.feedSource annotations, e.Quiet := by
    intro annotations
    rw [feedEvents]
    split
    · exact List.forall_mem_singleton.mpr
        (Event.quiet_warning_of_getLast? (by decide) (by decide))
    · exact nofun
  rw [composeTrigger]
  refine Report.Quiet.bind hsource fun _ => ?_
  refine (ctx.annotations_quiet _).bind fun annotations => ?_
  refine Report.Quiet.bind (hfeed annotations) fun _ => ?_
  refine (Interpolation.resolve_quiet _ _).bind fun composedName => ?_
  refine (ctx.namespaceOr_quiet _).bind fun ns => ?_
  exact (ctx.parameters_quiet _).bind fun parameters => Report.quiet_pure _

/-- So are rules. -/
theorem composeRule_quiet (package name : String) (spec : RuleSpec) :
    (ctx.composeRule package name spec).Quiet := by
  rw [composeRule]
  refine (Interpolation.resolve_quiet _ _).bind fun composedName => ?_
  refine (ctx.namespaceOr_quiet _).bind fun ns => ?_
  refine (Interpolation.resolve_quiet _ _).bind fun trigger => ?_
  exact (Interpolation.resolve_quiet _ _).bind fun action => Report.quiet_pure _

/-- So are routes. -/
theorem composeRoutes_quiet (name : String) (spec : PackageSpec) :
    (ctx.composeRoutes name spec).Quiet := by
  rw [composeRoutes]
  exact (ctx.namespaceOr_quiet _).bind fun ns => Report.quiet_ofExcept _

/-- So are dependencies. -/
theorem composeDependencies_quiet (package : String) (spec : PackageSpec) :
    (ctx.composeDependencies package spec).Quiet := by
  have hdependency : ∀ name dependency, (ctx.composeDependency package name dependency).Quiet := by
    intro name dependency
    rw [composeDependency]
    cases Location.ofText? dependency.location with
    | none => exact Report.quiet_fail _
    | some location =>
      refine (ctx.parameters_quiet _).bind fun parameters => ?_
      exact (ctx.annotations_quiet _).bind fun annotations => Report.quiet_pure _
  rw [composeDependencies]
  refine Report.Quiet.bind (Report.Quiet.mapM fun e => ?_) fun records => Report.quiet_pure _
  exact (hdependency e.1 e.2).bind fun record => Report.quiet_pure _

end Context

/-! ## Sources -/

/-- What is told while code is loaded is minor. -/
theorem Code.load_minor (t : FileTree) (path ext : String) :
    (Code.load t path ext).Tells Event.Minor := by
  rw [Code.load]
  split
  · rename_i bytes _
    intro e he
    simp only [Code.events] at he
    split at he
    · obtain rfl := List.mem_singleton.mp he
      exact .log (by decide) _
    · exact absurd he List.not_mem_nil
  · exact Report.tells_fail _

/-- Code is loaded quietly. -/
theorem Code.load_quiet (t : FileTree) (path ext : String) : (Code.load t path ext).Quiet :=
  (Code.load_minor t path ext).quiet

/-- What is told while an archive is written is minor. -/
theorem Archive.addMember_minor [P : Packer] (s : ScratchFile) (dir : String) (here : List String)
    (es : List Zip.Entry) (member : List String × FileEntry) :
    (Archive.addMember s dir here es member).Tells Event.Minor := by
  rw [Archive.addMember]
  split
  · exact List.forall_mem_singleton.mpr (.skipped _)
  split
  · exact Report.tells_fail _
  split
  · exact Report.tells_fail _
  · exact Report.tells_pure _

/-- What is told while the entries of an archive are found is minor. -/
theorem Archive.entriesAt_minor [P : Packer] (t : FileTree) (dir : String) (s : ScratchFile) :
    (Archive.entriesAt t dir s).Tells Event.Minor := by
  rw [Archive.entriesAt]
  split
  · split
    · exact Report.tells_fail _
    · refine (Report.Tells.foldlM fun es member =>
        Archive.addMember_minor s dir _ es member).bind fun es => ?_
      exact Report.Tells.bind (List.forall_mem_singleton.mpr (.log (by decide) _))
        fun _ => Report.tells_pure _
  · exact Report.tells_fail _
  · exact Report.tells_fail _

/-- **A directory is packed in turn**, if what goes on while the archive is there is quiet. -/
theorem Archive.pack_tells [Host] (package action dir : String) {body : String → Compose α}
    (h : ∀ archive, (body archive).Quiet) :
    (Archive.pack (P := Host.packer package action) dir body).Tells Event.Quiet := by
  intro t
  rw [Archive.pack_apply (P := Host.packer package action)]
  split
  · exact .of_forall (Report.quiet_fail _)
  · rename_i s hchoose
    have hentries := (Archive.entriesAt_minor (P := Host.packer package action)
      (s.addTo t (Packer.found (P := Host.packer package action))) dir s).quiet
    split
    · rename_i events failure hresult
      have hevents := congrArg Report.events hresult
      rw [hresult] at hentries
      exact .archive hchoose hentries (hevents ▸ List.prefix_rfl) .done
    · rename_i events es hresult
      have hevents := congrArg Report.events hresult
      rw [hresult] at hentries
      refine .archive hchoose (List.forall_mem_append.mpr ⟨hentries, h s.path _⟩) ?_ .done
      exact hevents ▸ List.prefix_append events _

namespace Context

variable (ctx : Context)

/-- The runtime of an action is found quietly. -/
theorem runtimeKind_quiet (name declared : String) (loaded : Option LoadedSource) :
    (ctx.runtimeKind name declared loaded).Quiet := by
  have hdeclared := Event.quiet_warning "runtime " (by decide)
  have hchanged := Event.quiet_warning "runtime of action " (by decide)
  have hevents : ∀ source decision, ∀ e ∈ runtimeEvents name declared source decision, e.Quiet := by
    intro source decision
    cases decision with
    | declared | invalid => exact nofun
    | declaredOverMismatch => simp [runtimeEvents, String.append_assoc, hdeclared]
    | inferredOverMismatch => simp [runtimeEvents, String.append_assoc, hdeclared, hchanged]
    | inferredOverUnsupported =>
      simp only [runtimeEvents]
      split <;> simp [String.append_assoc, hdeclared, hchanged]
  rw [runtimeKind]
  split
  · exact Report.quiet_pure _
  · exact hevents _ _

/-- The limits of an action are checked quietly. -/
theorem actionLimits_quiet (name : String) (spec : ActionSpec) :
    (actionLimits name spec).Quiet := by
  have htext := Event.quiet_warning "limit " (by decide)
  have hbounds : ∀ (b : LimitBounds) value, ∀ e ∈ b.events name value, e.Quiet := by
    intro b value
    rw [LimitBounds.events]
    split <;> simp [String.append_assoc, htext]
  have hunsupported : ∀ limit, ∀ e ∈ LimitsSpec.unsupportedEvents name limit, e.Quiet := by
    intro limit
    rw [LimitsSpec.unsupportedEvents]
    split <;> simp [String.append_assoc, htext]
  rw [actionLimits]
  cases spec.limits with
  | none => exact Report.quiet_pure _
  | some limits =>
    refine List.forall_mem_append.mpr ⟨List.forall_mem_append.mpr
      ⟨List.forall_mem_append.mpr ⟨hbounds _ _, hbounds _ _⟩, hbounds _ _⟩, fun e he => ?_⟩
    obtain ⟨limit, -, hlimit⟩ := List.mem_flatMap.mp he
    exact hunsupported limit e hlimit

/-- What is told about outputs is minor. -/
theorem checkOutputs_minor (name : String) (spec : ActionSpec) :
    (ctx.checkOutputs name spec).Tells Event.Minor := by
  refine (ctx.parameters_minor _).bind fun outputs => ?_
  split
  · exact List.forall_mem_singleton.mpr (.log (by decide) _)
  · exact Report.tells_pure _

/-- So it is about the annotations of an action. -/
theorem actionAnnotations_minor (name : String) (spec : ActionSpec) :
    (ctx.actionAnnotations name spec).Tells Event.Minor := by
  refine (ctx.annotations_minor _).bind fun annotations => ?_
  split
  · exact Report.tells_pure _
  split
  · exact Report.Tells.bind (List.forall_mem_singleton.mpr (.log (by decide) _))
      fun _ => Report.tells_pure _
  · exact Report.tells_pure _

/-- An action with its source is composed quietly. -/
theorem actionOf_quiet (package name : String) (spec : ActionSpec)
    (loaded : Option LoadedSource) : (ctx.actionOf package name spec loaded).Quiet := by
  rw [actionOf]
  refine (ctx.runtimeKind_quiet _ _ _).bind fun kind => ?_
  refine (ctx.parameters_quiet _).bind fun parameters => ?_
  refine (ctx.checkOutputs_minor name spec).quiet.bind fun _ => ?_
  refine (ctx.actionAnnotations_minor name spec).quiet.bind fun annotations => ?_
  refine (actionLimits_quiet _ _).bind fun limits => ?_
  exact (ctx.namespaceOr_quiet _).bind fun ns => Report.quiet_pure _

/-- What is told while a file is loaded is minor. -/
theorem loadFile_minor (name path : String) (spec : ActionSpec) (t : FileTree) :
    (loadFile name path spec t).Tells Event.Minor := by
  rw [loadFile]
  split
  · exact Report.tells_fail _
  · exact (Code.load_minor t _ _).bind fun code => Report.tells_pure _

/-- Going on with a directory is quiet but for its archive, if what goes on is quiet. -/
theorem withDirectory_tells [Host] {package action name path : String} {spec : ActionSpec}
    {body : LoadedSource → Compose α} (h : ∀ loaded, (body loaded).Quiet) :
    (withDirectory (P := Host.packer package action) name path spec body).Tells Event.Quiet := by
  unfold withDirectory
  split
  · exact (Compose.quiet_ofReport (Report.quiet_fail _)).tells
  · refine Archive.pack_tells package action path fun archive => ?_
    refine (Compose.quiet_looking fun t => Code.load_quiet t _ _).bind fun code => ?_
    exact (Compose.quiet_ofReport (Report.quiet_log (by decide) _)).bind fun _ => h _

/-- **Actions are composed quietly** but for an archive, whatever their source. -/
theorem composeAction_tells [Host] (package name : String) (spec : ActionSpec) :
    (ctx.composeAction (P := Host.packer package name) package name spec).Tells Event.Quiet := by
  have hbody : ∀ loaded, (Compose.ofReport (ctx.actionOf package name spec loaded)).Quiet :=
    fun loaded => Compose.quiet_ofReport (ctx.actionOf_quiet package name spec loaded)
  intro t
  unfold composeAction
  rw [withSource_apply (P := Host.packer package name)]
  split
  · exact ((Compose.quiet_ofReport (Report.quiet_log (by decide) _)).bind
      fun _ => hbody none).tells t
  split
  · exact withDirectory_tells (fun loaded => hbody (some loaded)) t
  · exact ((Compose.quiet_looking fun t => (loadFile_minor _ _ _ t).quiet).bind
      fun loaded => hbody (some loaded)).tells t

/-! ## The sections of a package -/

/-- No name is taken while the actions of a package are composed. -/
theorem composeActions_tells [Host] (package : String) (spec : PackageSpec) :
    (ctx.composeActions package spec).Tells Event.Quiet :=
  Compose.Tells.mapM (fun e => ctx.composeAction_tells package e.1 e.2)
    fun e => ctx.composeAction_leavesTree (P := Host.packer package e.1) package e.1 e.2

/-- Nor while its sequences are. -/
theorem composeSequences_quiet (package : String) (spec : PackageSpec) :
    (ctx.composeSequences package spec).Quiet :=
  Report.Quiet.mapM fun e => ctx.composeSequence_quiet package e.1 e.2

/-- Nor while its triggers are: they are put into the plan later. -/
theorem composeTriggers_quiet (spec : PackageSpec) : (ctx.composeTriggers spec).Quiet :=
  Report.Quiet.mapM fun e => ctx.composeTrigger_quiet e.1 e.2

/-- Nor while its rules are. -/
theorem composeRules_quiet (package : String) (spec : PackageSpec) :
    (ctx.composeRules package spec).Quiet :=
  Report.Quiet.mapM fun e => ctx.composeRule_quiet package e.1 e.2

end Context

end DeployPlan
