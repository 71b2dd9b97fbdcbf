import DeployPlan.Proofs.Compose.Build
import DeployPlan.Proofs.Declarations

/-!
# One archive at a time

While a plan is composed, each action that has a directory as its source puts an archive into the
tree.  Whether the action succeeds or not, its archive is gone before the next one comes.  So no
archive meets another, the tree is left as it was found, and what an action ships does not depend on
the actions before it.

## Main definitions

* `DeployPlan.archivesAfter` — the archives that are in the tree after some events.
* `Compose.Tidy` — the tree is left as it was found, and there never are two archives in it.
* `Plan.ShipsAlone` — each action of a plan ships what it does when it is composed alone.

## Main results

* `InTurn.archivesAfter_length_le` — of archives that come in turn, one at most is there.
* `Manifest.composePlan_tells`, `buildPlan_tells` — composing and building a plan tells messages,
  and archives in turn.
* `buildPlan_tidy` — both are tidy, and actions ship what they do alone.
-/

set_option autoImplicit false

namespace DeployPlan

/-! ## Archives that are there -/

/-- The archives that are there after an event, from those that were there before. -/
def Event.track (archives : List String) : Event → List String
  | .log _ _ => archives
  | .archiveAdded path => path :: archives
  | .archiveRemoved path => archives.erase path

/-- The archives that are in the tree after some events, the latest first. -/
def archivesAfter (events : List Event) : List String := events.foldl Event.track []

/-- Messages change nothing about archives. -/
theorem Event.foldl_track_messages {es : List Event} (h : ∀ e ∈ es, e.IsMessage)
    (archives : List String) : es.foldl track archives = archives := by
  induction es with
  | nil => rfl
  | cons e es ih =>
    obtain ⟨⟨level, text, rfl⟩, hes⟩ := List.forall_mem_cons.mp h
    exact ih hes

/-- After a message, the same archives are there as without it. -/
theorem archivesAfter_message_cons {e : Event} (he : e.IsMessage) (es : List Event) :
    archivesAfter (e :: es) = archivesAfter es := by
  obtain ⟨level, text, rfl⟩ := he
  rfl

/-- Along with messages, an archive is there. -/
theorem archivesAfter_added {told : List Event} (h : ∀ e ∈ told, e.IsMessage) (path : String) :
    archivesAfter (.archiveAdded path :: told) = [path] :=
  Event.foldl_track_messages h [path]

/-- After an archive has come and gone, the same archives are there as without it. -/
theorem archivesAfter_archive {told : List Event} (h : ∀ e ∈ told, e.IsMessage) (path : String)
    (es : List Event) :
    archivesAfter ((.archiveAdded path :: told) ++ .archiveRemoved path :: es) =
      archivesAfter es := by
  have hadded : (Event.archiveAdded path :: told).foldl Event.track [] = [path] :=
    archivesAfter_added h path
  rw [archivesAfter, List.foldl_append, hadded, List.foldl_cons, Event.track,
    List.erase_cons_head, archivesAfter]

/-- A list that others start with ends in the first of these, or goes on into the second. -/
theorem prefix_append_cases {α : Type} {p l l' : List α} (h : p <+: l ++ l') :
    p <+: l ∨ ∃ q, q <+: l' ∧ p = l ++ q := by
  rcases List.prefix_or_prefix_of_prefix h (List.prefix_append l l') with hp | ⟨q, rfl⟩
  · exact .inl hp
  · exact .inr ⟨q, (List.prefix_append_right_inj l).mp h, rfl⟩

namespace InTurn

variable [Host] {t : FileTree} {es : List Event}

/-- **Of archives that come in turn, one at most is there** at any time.

**Proof sketch.** Induction on the events.  Among those of one archive there is this archive alone,
and once it is gone those that follow are as if it had not been. -/
theorem archivesAfter_length_le (h : InTurn Event.IsMessage t es) {p : List Event} (hp : p <+: es) :
    (archivesAfter p).length ≤ 1 := by
  induction h generalizing p with
  | done =>
    rw [List.prefix_nil.mp hp]
    exact Nat.zero_le 1
  | message he _ ih =>
    rcases List.prefix_cons_iff.mp hp with rfl | ⟨q, rfl, hq⟩
    · exact Nat.zero_le 1
    · rw [archivesAfter_message_cons he]
      exact ih hq
  | archive _ htold _ _ ih =>
    rcases prefix_append_cases hp with hfirst | ⟨q, hq, rfl⟩
    · rcases List.prefix_cons_iff.mp hfirst with rfl | ⟨q, rfl, hq⟩
      · exact Nat.zero_le 1
      · rw [archivesAfter_added fun e he => htold e (hq.subset he)]
        exact Nat.le_refl 1
    · rcases List.prefix_cons_iff.mp hq with rfl | ⟨rest, rfl, hrest⟩
      · rw [List.append_nil, archivesAfter_added htold]
        exact Nat.le_refl 1
      · rw [archivesAfter_archive htold]
        exact ih hrest

/-- In the end, none is there. -/
theorem archivesAfter_eq_nil (h : InTurn Event.IsMessage t es) : archivesAfter es = [] := by
  induction h with
  | done => rfl
  | message he _ ih => rw [archivesAfter_message_cons he, ih]
  | archive _ htold _ _ ih => rw [archivesAfter_archive htold, ih]

end InTurn

/-! ## What is told while plans are composed -/

/-- What is quiet but for archives tells messages, and archives in turn. -/
theorem Compose.Tells.messages [Host] {α : Type} {c : Compose α} (h : c.Tells Event.Quiet) :
    c.Tells Event.IsMessage :=
  fun t => (h t).mono fun _ he => he.isMessage

/-- Reports that are quiet have messages alone. -/
theorem Report.Quiet.isMessage {α : Type} {r : Report α} (h : r.Quiet) :
    ∀ e ∈ r.events, e.IsMessage :=
  fun e he => (h e he).isMessage

/-- Names that are taken are told of in messages. -/
theorem Plan.addNamed_isMessage {α : Type} (kind : String) (name : α → String) (m : KeyMap α)
    (l : List α) : ∀ e ∈ (addNamed kind name m l).events, e.IsMessage := by
  induction l generalizing m with
  | nil => exact List.forall_mem_nil _
  | cons x l ih =>
    rw [addNamed_cons_events]
    refine List.forall_mem_append.mpr ⟨?_, ih _⟩
    split
    · exact List.forall_mem_singleton.mpr ⟨_, _, rfl⟩
    · exact List.forall_mem_nil _

namespace Context

variable (ctx : Context)

/-- Adding a package to a plan tells messages, and the archives of its actions in turn. -/
theorem addPackage_tells [Host] (plan : Plan) (name : String) (spec : PackageSpec) :
    (ctx.addPackage plan name spec).Tells Event.IsMessage := by
  rw [addPackage]
  refine Compose.tells_liftM_bind (Report.quiet_log (by decide) _).isMessage fun _ => ?_
  refine Compose.tells_liftM_bind (ctx.composePackage_quiet _ _).isMessage fun package => ?_
  refine (ctx.composeActions_tells _ _).messages.bind (ctx.composeActions_leavesTree _ _)
    fun actions => ?_
  refine Compose.tells_liftM_bind (ctx.composeSequences_quiet _ _).isMessage fun sequences => ?_
  refine Compose.tells_liftM_bind (ctx.composeTriggers_quiet _).isMessage fun triggers => ?_
  refine Compose.tells_liftM_bind (Plan.addNamed_isMessage _ _ _ _) fun allTriggers => ?_
  refine Compose.tells_liftM_bind (ctx.composeRules_quiet _ _).isMessage fun rules => ?_
  refine Compose.tells_liftM_bind (Plan.addNamed_isMessage _ _ _ _) fun allRules => ?_
  refine Compose.tells_liftM_bind (ctx.composeRoutes_quiet _ _).isMessage fun routes => ?_
  refine Compose.tells_liftM_bind (ctx.composeDependencies_quiet _ _).isMessage fun _ => ?_
  exact Compose.tells_ofReport (List.forall_mem_nil _)

/-- So does adding many. -/
theorem addPackages_tells [Host] (plan : Plan) (specs : List (String × PackageSpec)) :
    (ctx.addPackages plan specs).Tells Event.IsMessage := by
  induction specs generalizing plan with
  | nil => exact Compose.tells_ofReport (List.forall_mem_nil _)
  | cons e specs ih =>
    exact (ctx.addPackage_tells plan e.1 e.2).bind (addPackage_leavesTree plan) fun plan => ih plan

end Context

/-- **Composing a plan** tells messages, and archives in turn. -/
theorem Manifest.composePlan_tells [Host] (m : Manifest) (settings : Settings)
    (vars : Variables) :
    (m.composePlan settings vars).Tells Event.IsMessage := by
  refine Compose.tells_liftM_bind (List.forall_mem_nil _) fun ctx => ?_
  refine Compose.tells_liftM_bind (fun e he => (sourceEvents_quiet e he).isMessage) fun _ => ?_
  refine (ctx.addPackages_tells _ _).bind (Context.addPackages_leavesTree _ _) fun plan => ?_
  refine Compose.tells_liftM_bind (Report.quiet_log (by decide) _).isMessage fun _ => ?_
  exact Compose.tells_ofReport (List.forall_mem_nil _)

/-! ## What is told while plans are revised -/

namespace Revision

variable {σ τ : Type} {P : Event → Prop} {a b r : Revision σ}

/-- All that a revision says is of a kind. -/
def Tells (P : Event → Prop) (r : Revision σ) : Prop := ∀ s, ∀ e ∈ (r s).2.events, P e

/-- A revision that only says something says no more than that. -/
theorem tells_saying {es : List Event} (h : ∀ e ∈ es, P e) :
    (saying es : Revision σ).Tells P := fun _ => h

/-- One revision after another says what both do. -/
theorem Tells.andThen (ha : a.Tells P) (hb : b.Tells P) : (a.andThen b).Tells P := by
  intro s
  have hfirst := ha s
  unfold Revision.andThen
  generalize a s = first at hfirst ⊢
  obtain ⟨left, events, failure | _⟩ := first
  · exact hfirst
  · exact List.forall_mem_append.mpr ⟨hfirst, hb left⟩

/-- Revisions in turn say what all do. -/
theorem Tells.all {revisions : List (Revision σ)} (h : ∀ r ∈ revisions, r.Tells P) :
    (Revision.all revisions).Tells P := by
  induction revisions with
  | nil => exact fun _ => List.forall_mem_nil _
  | cons r revisions ih =>
    obtain ⟨hr, hrest⟩ := List.forall_mem_cons.mp h
    exact hr.andThen (ih hrest)

/-- A revision under a key says what it says there, or that the key is missing. -/
theorem Tells.atKey (h : r.Tells P) (key : String) {missing : List Event}
    (hmissing : ∀ e ∈ missing, P e) : (Revision.atKey key missing r).Tells P := by
  intro m
  rw [Revision.atKey]
  split
  · exact h _
  · exact hmissing

/-- The rule for a revision under a condition. -/
theorem Tells.onlyIf (h : r.Tells P) (c : σ → Bool) {es : List Event} (hes : ∀ e ∈ es, P e) :
    Revision.Tells P fun s => if c s then r s else (s, Report.ofEvents es) := by
  intro s
  show ∀ e ∈ (if c s then r s else (s, Report.ofEvents es)).2.events, P e
  split
  · exact h s
  · exact hes

/-- A revision of a part says what it says about the part. -/
theorem Tells.onPart (h : r.Tells P) (part : τ → σ) (put : σ → τ → τ) :
    (Revision.onPart part put r).Tells P := fun s => h (part s)

end Revision

namespace Override

variable (settings : Settings) (vars : Variables) (path : String)

/-- Inputs are set with messages alone. -/
theorem setInputs_tells (inputs : KeyMap ParamSpec) :
    (setInputs vars inputs).Tells Event.IsMessage := by
  intro parameters e he
  obtain ⟨entry, -, hentry⟩ := List.mem_flatMap.mp he
  have hraw : e ∈ (entry.2.rawValue?.map (Yaml.Value.resolveEvents vars)).getD [] := hentry
  cases h : entry.2.rawValue? with
  | none => simp [h] at hraw
  | some v =>
    rw [h] at hraw
    exact (v.resolveEvents_minor vars e hraw).quiet.isMessage

/-- So are annotations. -/
theorem setAnnotations_tells (annotations : KeyMap Yaml.Value) :
    (setAnnotations path annotations).Tells Event.IsMessage := by
  refine .all (List.forall_mem_map.mpr ?_)
  rintro ⟨key, v⟩ -
  intro list
  show ∀ e ∈ (setAnnotationAt path key v list).2.events, e.IsMessage
  rw [setAnnotationAt]
  split
  · exact List.forall_mem_map.mpr fun dropped _ => ⟨_, _, rfl⟩
  · exact List.forall_mem_nil _

/-- **To set the inputs and then the annotations of an entity**, wherever it has them, tells
messages alone. -/
theorem setParts_tells {σ : Type} (parameters annotations : σ → List KeyValue)
    (putParameters putAnnotations : List KeyValue → σ → σ) (inputs : KeyMap ParamSpec)
    (given : KeyMap Yaml.Value) :
    (Revision.andThen (.onPart parameters putParameters (setInputs vars inputs))
      (.onPart annotations putAnnotations (setAnnotations path given))).Tells Event.IsMessage :=
  ((setInputs_tells vars inputs).onPart _ _).andThen ((setAnnotations_tells path given).onPart _ _)

/-- So packages are revised. -/
theorem revisePackage_tells (spec : PackageSpec) :
    (revisePackage vars path spec).Tells Event.IsMessage := setParts_tells vars path _ _ _ _ _ _

/-- So are actions. -/
theorem reviseAction_tells (spec : ActionSpec) :
    (reviseAction vars path spec).Tells Event.IsMessage := setParts_tells vars path _ _ _ _ _ _

/-- So are triggers. -/
theorem reviseTrigger_tells (spec : TriggerSpec) :
    (reviseTrigger vars path spec).Tells Event.IsMessage := setParts_tells vars path _ _ _ _ _ _

/-- A pass over packages says what is said about each. -/
theorem eachPackage_tells {P : Event → Prop} {missing : String → List Event}
    {revise : String → PackageSpec → Revision PackagePlan}
    (hmissing : ∀ name, ∀ e ∈ missing name, P e) (h : ∀ name spec, (revise name spec).Tells P)
    (specs : List (String × PackageSpec)) :
    (eachPackage settings missing revise specs).Tells P := by
  induction specs with
  | nil => exact fun _ => List.forall_mem_nil _
  | cons e specs ih =>
    have both := ((h e.1 e.2).atKey e.1 (hmissing e.1)).andThen ih
    exact both.onlyIf (fun packages => packages.contains e.1 || settings.skipUnmatchedPackages)
      (hmissing e.1)

/-- The first pass over the packages of a plan. -/
theorem revisePackages_tells (specs : List (String × PackageSpec)) :
    (revisePackages settings vars path specs).Tells Event.IsMessage := by
  refine eachPackage_tells settings (fun name => ?_) (fun _ spec => ?_) specs
  · exact List.forall_mem_singleton.mpr ⟨_, _, rfl⟩
  · exact (revisePackage_tells vars path spec).onPart _ _

/-- The second, over their actions. -/
theorem reviseActions_tells (specs : List (String × PackageSpec)) :
    (reviseActions settings vars path specs).Tells Event.IsMessage := by
  refine eachPackage_tells settings (fun _ => List.forall_mem_nil _) (fun name spec => ?_) specs
  refine (Revision.Tells.all (List.forall_mem_map.mpr fun e _ => ?_)).onPart _ _
  refine ((reviseAction_tells vars path e.2).onPart _ _).atKey e.1 ?_
  exact List.forall_mem_singleton.mpr ⟨_, _, rfl⟩

/-- The third, over triggers. -/
theorem reviseTriggers_tells (specs : List (String × PackageSpec)) :
    (reviseTriggers vars path specs).Tells Event.IsMessage := by
  refine .all (List.forall_mem_map.mpr fun e _ => ?_)
  refine (reviseTrigger_tells vars path e.2).atKey e.1 ?_
  exact List.forall_mem_singleton.mpr ⟨_, _, rfl⟩

/-- **Overriding a plan** tells messages alone. -/
theorem apply_tells (descriptor : Manifest) :
    (apply settings vars descriptor).Tells Event.IsMessage := by
  have hsource : ∀ e ∈ sourceEvents descriptor, e.IsMessage := by
    rw [sourceEvents]
    split
    · exact List.forall_mem_singleton.mpr ⟨_, _, rfl⟩
    · exact List.forall_mem_nil _
  refine .all ?_
  simp only [List.forall_mem_cons]
  refine ⟨Revision.tells_saying hsource, ?_, ?_, ?_, List.forall_mem_nil _⟩
  · exact (revisePackages_tells settings vars _ _).onPart _ _
  · exact (reviseActions_tells settings vars _ _).onPart _ _
  · exact (reviseTriggers_tells vars _ _).onPart _ _

end Override

/-- Revising a plan tells what the revision says. -/
theorem Plan.revised_isMessage {revision : Revision Plan} (h : revision.Tells Event.IsMessage)
    (plan : Plan) : ∀ e ∈ (plan.revised revision).events, e.IsMessage := by
  have hplan := h plan
  rw [Plan.revised]
  generalize revision plan = revised at hplan ⊢
  obtain ⟨left, events, failure | _⟩ := revised
  · exact hplan
  · exact List.forall_mem_append.mpr ⟨hplan, List.forall_mem_nil _⟩

/-! ## Plans from files -/

/-- A document is loaded without an event. -/
theorem Manifest.load_tells [Host] (path : String) :
    (Manifest.load path).Tells Event.IsMessage := by
  intro t
  have hnone : ((Manifest.load path) t).report.events = [] := by
    rw [Manifest.load, Compose.looking]
    dsimp only
    split
    · rfl
    · split <;> rfl
  rw [hnone]
  exact .done

section Plans

variable [Host] (settings : Settings) (vars : Variables) (manifest : String)
  (deployment : Option String)

/-- **Building a plan** tells messages, and archives in turn. -/
theorem buildPlan_tells : (buildPlan settings vars manifest deployment).Tells Event.IsMessage := by
  have hlog : ∀ level text, ∀ e ∈ (Report.log level text).events, e.IsMessage :=
    fun level text => List.forall_mem_singleton.mpr ⟨level, text, rfl⟩
  rw [buildPlan]
  refine Compose.tells_liftM_bind (hlog _ _) fun _ => ?_
  refine (Manifest.load_tells manifest).bind (Manifest.load_leavesTree _) fun m => ?_
  refine (m.composePlan_tells settings vars).bind Manifest.composePlan_leavesTree fun plan => ?_
  cases deployment with
  | none => exact Compose.tells_ofReport (List.forall_mem_nil _)
  | some path =>
    refine Compose.tells_liftM_bind (hlog _ _) fun _ => ?_
    refine (Manifest.load_tells path).bind (Manifest.load_leavesTree _) fun descriptor => ?_
    exact Compose.tells_ofReport
      (Plan.revised_isMessage (Override.apply_tells settings vars descriptor) plan)

/-- Building a plan leaves the tree as it was found. -/
theorem buildPlan_leavesTree : (buildPlan settings vars manifest deployment).LeavesTree := by
  rw [buildPlan]
  refine Compose.leavesTree_liftM_bind _ fun _ => ?_
  refine (Manifest.load_leavesTree _).bind fun m => ?_
  refine Manifest.composePlan_leavesTree.bind fun plan => ?_
  cases deployment with
  | none => exact Compose.leavesTree_pure plan
  | some path =>
    refine Compose.leavesTree_liftM_bind _ fun _ => ?_
    exact (Manifest.load_leavesTree _).bind fun descriptor => Compose.leavesTree_liftM _

end Plans

/-! ## Tidiness -/

/-- **A tidy run over a tree** leaves the tree as it was found, also after a failure.  Each archive
is made in the tree as it was found, and there never are two of them. -/
structure Compose.Tidy [Host] {α : Type} (c : Compose α) (t : FileTree) : Prop where
  tree : (c t).tree = t
  inTurn : InTurn Event.IsMessage t (c.eventsAt t)
  atMostOne : ∀ p, p <+: c.eventsAt t → (archivesAfter p).length ≤ 1
  noneLeft : archivesAfter (c.eventsAt t) = []

/-- What leaves trees and tells archives in turn is tidy. -/
theorem Compose.Tells.tidy [Host] {α : Type} {c : Compose α} (h : c.Tells Event.IsMessage)
    (hleaves : c.LeavesTree) (t : FileTree) : c.Tidy t where
  tree := hleaves t
  inTurn := h t
  atMostOne _ hp := (h t).archivesAfter_length_le hp
  noneLeft := (h t).archivesAfter_eq_nil

/-- Actions ship what they do when they are composed alone, over a tree. -/
def EntityLaw.shippedAlone [Host] (ctx : Context) (t : FileTree) : EntityLaw where
  package _ _ _ := True
  action package name spec r := ∃ alone,
    (ctx.composeAction (P := Host.packer package name) package name spec).resultAt t = .ok alone ∧
      r.action.exec = alone.action.exec ∧ r.filePath = alone.filePath
  sequence _ _ _ _ := True
  trigger _ _ _ := True
  dependency _ _ := True

/-- **Each action of a plan ships what it does when it is composed alone**, over the tree as it was
found. -/
def Plan.ShipsAlone [Host] (plan : Plan) (m : Manifest) (settings : Settings)
    (vars : Variables) (t : FileTree) : Prop :=
  ∃ ctx, Context.ofManifest settings vars m = .ok ctx ∧ plan.Obeys (.shippedAlone ctx t) m vars

/-- A context ships actions alone. -/
theorem Context.followsAt_shippedAlone [Host] (ctx : Context) (t : FileTree) :
    ctx.FollowsAt (.shippedAlone ctx t) t where
  package _ _ _ _ := trivial
  action _ _ _ r h := ⟨r, h, rfl, rfl⟩
  sequence _ _ _ _ _ := trivial
  trigger _ _ _ _ := trivial
  dependency _ _ _ _ _ := trivial

/-- What actions ship is nothing that a descriptor changes. -/
theorem EntityLaw.survives_shippedAlone [Host] (ctx : Context) (t : FileTree)
    (vars : Variables) (descriptor : Manifest) :
    (EntityLaw.shippedAlone ctx t).Survives vars descriptor where
  package _ _ _ _ _ _ _ := trivial
  action _ _ _ _ _ _ _ h := h
  trigger _ _ _ _ _ _ _ := trivial

/-- **Composing and building plans is tidy**, whether it succeeds or not: the tree is left as it was
found, no two archives meet, and each is made in the tree as it was found.  So each action of a
plan ships what it does when it is composed alone.

**Proof sketch.** One action tells messages and at most one archive, which is gone when the action
is done.  As each action leaves the tree as it was found, the next one finds the same tree; this
carries over to packages, documents and, as an override has no archives, to plans from files. -/
theorem buildPlan_tidy [Host] (settings : Settings) (vars : Variables) (t : FileTree) :
    (∀ m : Manifest, (m.composePlan settings vars).Tidy t) ∧
      (∀ manifest deployment, (buildPlan settings vars manifest deployment).Tidy t) ∧
      (∀ (m : Manifest) plan, (m.composePlan settings vars).resultAt t = .ok plan →
        plan.ShipsAlone m settings vars t) ∧
      ∀ manifest deployment plan,
        (buildPlan settings vars manifest deployment).resultAt t = .ok plan →
          ∃ m, (Manifest.load manifest).resultAt t = .ok m ∧
            plan.ShipsAlone m settings vars t := by
  refine ⟨fun m => ?_, fun manifest deployment => ?_, fun m plan h => ?_,
    fun manifest deployment plan h => ?_⟩
  · exact (m.composePlan_tells settings vars).tidy Manifest.composePlan_leavesTree t
  · exact (buildPlan_tells settings vars manifest deployment).tidy
      (buildPlan_leavesTree settings vars manifest deployment) t
  · obtain ⟨ctx, -, hctx, -⟩ := Manifest.composePlan_eq_ok_iff.mp h
    refine ⟨ctx, hctx, Manifest.composePlan_obeys h fun other hother => ?_⟩
    obtain rfl := Except.ok.inj (hctx.symm.trans hother)
    exact ctx.followsAt_shippedAlone t
  · obtain ⟨m, composed, hm, hcomposed, -⟩ := buildPlan_eq_ok_iff.mp h
    obtain ⟨ctx, -, hctx, -⟩ := Manifest.composePlan_eq_ok_iff.mp hcomposed
    refine ⟨m, hm, ctx, hctx, buildPlan_obeys h hm (fun other hother => ?_)
      fun descriptor _ => EntityLaw.survives_shippedAlone ctx t vars descriptor⟩
    obtain rfl := Except.ok.inj (hctx.symm.trans hother)
    exact ctx.followsAt_shippedAlone t

end DeployPlan
