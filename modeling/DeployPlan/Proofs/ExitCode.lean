import DeployPlan.CommandLine.Run
import DeployPlan.Proofs.Compose.Build
import DeployPlan.Proofs.FileTree
import DeployPlan.Proofs.Text.Pieces

/-!
# Exit codes

The exit code of a command that fails is read off the message.  A message starts with the word for
what the failure is about, and no name or path comes before that, so the exit code depends on
nothing else.  A plan that was built may still not be printed: as JSON, the paths in it have to be
texts.

## Main definitions

* `FailureCategory.mark` — the words with which messages start.
* `FailureCategory.exitCode` — the exit codes for what failures are about.
* `Invocation.Prints` — a command can print a plan.

## Main results

* `Failure.exists_message_eq` — every message starts with its word.
* `Failure.exitCodeOf_message` — its exit code is that for what the failure is about.
* `Invocation.run_exitCode` — so are those of the commands that build a plan; they are zero exactly
  if the plan is built and printed.
* `Invocation.run_exitCode_unprinted` — a plan that is built without being printed.
-/

set_option autoImplicit false

namespace DeployPlan

/-! ## Messages -/

namespace FailureCategory

/-- The words with which the messages of failures start. -/
def mark : FailureCategory → String
  | .manifest => "manifest error:"
  | .deployment => "deployment error:"
  | .settings => "config error:"
  | .runtime => "runtime error:"
  | .other => "serialization error:"

/-- The exit code for what a failure is about. -/
def exitCode : FailureCategory → Nat
  | .manifest | .deployment | .settings => 2
  | .runtime => 3
  | .other => 1

/-- No exit code of a failure is that of success. -/
theorem exitCode_ne_zero (c : FailureCategory) : c.exitCode ≠ 0 := by
  cases c <;> decide

/-- A text starts with no mark but its own. -/
theorem startsWith_mark_append (c d : FailureCategory) (rest : String) :
    Text.startsWith c.mark (d.mark ++ rest) = decide (c = d) := by
  by_cases h : c = d
  · subst h
    simp
  · have hapart : ¬ c.mark.toList <+: d.mark.toList ∧ ¬ d.mark.toList <+: c.mark.toList := by
      revert h
      cases c <;> cases d <;> decide
    rw [Text.startsWith_eq_false_of_apart hapart.1 hapart.2, decide_eq_false h]

/-- **The exit code of a text** that starts with a mark. -/
theorem exitCodeOf_mark_append (c : FailureCategory) (rest : String) :
    exitCodeOf (c.mark ++ rest) = c.exitCode := by
  have hmanifest : Text.startsWith "manifest error:" (c.mark ++ rest) = decide (.manifest = c) :=
    startsWith_mark_append .manifest c rest
  have hdeployment :
      Text.startsWith "deployment error:" (c.mark ++ rest) = decide (.deployment = c) :=
    startsWith_mark_append .deployment c rest
  have hsettings : Text.startsWith "config error:" (c.mark ++ rest) = decide (.settings = c) :=
    startsWith_mark_append .settings c rest
  have hruntime : Text.startsWith "runtime error:" (c.mark ++ rest) = decide (.runtime = c) :=
    startsWith_mark_append .runtime c rest
  simp only [exitCodeOf, List.any_cons, List.any_nil, hmanifest, hdeployment, hsettings, hruntime]
  cases c <;> rfl

end FailureCategory

namespace Failure

/-- **Every message starts with the mark** of what the failure is about. -/
theorem exists_message_eq (f : Failure) : ∃ rest, f.message = f.category.mark ++ rest := by
  have hstart : f.category.mark.toList <+: f.message.toList := by
    cases f with
    | noCanonicalText =>
      unfold message
      decide +kernel
    | _ =>
      unfold message
      simp only [category, FailureCategory.mark, String.toList_append, List.append_assoc]
      -- The mark is at the start of the words before the first name or path.
      exact List.IsPrefix.trans (by decide +kernel) (List.prefix_append _ _)
  exact Text.startsWith_iff.mp (List.isPrefixOf_iff_prefix.mpr hstart)

/-- **The exit code of a message** is that for what the failure is about. -/
theorem exitCodeOf_message (f : Failure) : exitCodeOf f.message = f.category.exitCode := by
  obtain ⟨rest, hrest⟩ := f.exists_message_eq
  rw [hrest, FailureCategory.exitCodeOf_mark_append]

end Failure

/-! ## Commands -/

/-- The exit code for a plan that cannot be printed. -/
theorem Plan.exitCodeOf_unprintable : exitCodeOf unprintable = FailureCategory.other.exitCode := by
  decide +kernel

/-- A plan is written as JSON if all paths in it are texts. -/
theorem Plan.json_eq [Host] (p : Plan) :
    (∀ path ∈ p.paths, Host.isText path = true) ∧ p.json = .ok p.toJson.pretty ∨
      (¬ ∀ path ∈ p.paths, Host.isText path = true) ∧ p.json = .error unprintable := by
  rw [Plan.json]
  by_cases htexts : p.paths.all Host.isText = true
  · exact .inl ⟨List.all_eq_true.mp htexts, if_pos htexts⟩
  · exact .inr ⟨mt List.all_eq_true.mpr htexts, if_neg htexts⟩

/-- The exit code that a report comes to. -/
theorem Answer.exitCode_ofReport (r : Report (Except String (List String))) :
    (ofReport r).exitCode = match r.result with
      | .ok printed => (ofPrinted printed).exitCode
      | .error f => f.category.exitCode := by
  rw [ofReport]
  cases r.result with
  | ok printed => rfl
  | error f => exact f.exitCodeOf_message

namespace Invocation

variable [Host] {i : Invocation} {o : BuildOptions}

/-- Whether a command builds a plan with options. -/
def Builds (i : Invocation) (o : BuildOptions) : Prop :=
  i.command = .compose o ∨ i.command = .validate o

/-- **A command can print a plan**: if it prints the plan itself, and as JSON, all paths in the plan
are texts. -/
def Prints (i : Invocation) (plan : Plan) : Prop :=
  (∃ o, i.command = .compose o) → i.json = true → ∀ path ∈ plan.paths, Host.isText path = true

/-- The result of building is that of loading the settings and then building the plan. -/
theorem build_result (o : BuildOptions) (config : Option String) (s : Surroundings) :
    (o.build config s).result = o.settings config s >>= fun settings =>
      (buildPlan settings (o.vars s) o.manifest o.deployment).resultAt s.tree := by
  rw [BuildOptions.build, Report.result_bind]
  rfl

/-- What a command says of a plan that it builds: lines if it can print the plan, and else why it
cannot. -/
theorem exists_run_eq (h : i.Builds o) (s : Surroundings) :
    ∃ tell : Plan → Except String (List String),
      i.run s = .ofReport (o.build i.config s >>= fun plan => pure (tell plan)) ∧
      ∀ plan, i.Prints plan ∧ (∃ lines, tell plan = .ok lines) ∨
        ¬ i.Prints plan ∧ tell plan = .error Plan.unprintable := by
  rcases h with h | h
  · refine ⟨i.composed, by rw [run, h], fun plan => ?_⟩
    rw [composed, Prints]
    by_cases hjson : i.json = true
    · rw [if_pos hjson]
      rcases plan.json_eq with ⟨htexts, hplan⟩ | ⟨htexts, hplan⟩
      · exact .inl ⟨fun _ _ => htexts, _, by rw [hplan]; rfl⟩
      · exact .inr ⟨fun hprints => htexts (hprints ⟨o, h⟩ hjson), by rw [hplan]; rfl⟩
    · rw [if_neg hjson]
      exact .inl ⟨fun _ hjson' => absurd hjson' hjson, _, rfl⟩
  · refine ⟨fun plan => .ok (i.validated o plan), by rw [run, h], fun plan => .inl ⟨?_, _, rfl⟩⟩
    rintro ⟨o', hcompose⟩
    cases h.symm.trans hcompose

/-- The exit code of a command that cannot build a plan. -/
theorem exitCode_of_error {f : Failure} {s : Surroundings} (h : i.Builds o)
    (hf : (o.build i.config s).result = .error f) : (i.run s).exitCode = f.category.exitCode := by
  obtain ⟨tell, hrun, -⟩ := exists_run_eq h s
  rw [hrun, Answer.exitCode_ofReport, Report.result_bind, hf]
  rfl

/-- The exit code of a command that built a plan. -/
theorem exitCode_of_ok (plan : Plan) {s : Surroundings} (h : i.Builds o)
    (hplan : (o.build i.config s).result = .ok plan) :
    i.Prints plan ∧ (i.run s).exitCode = 0 ∨
      ¬ i.Prints plan ∧ (i.run s).exitCode = FailureCategory.other.exitCode := by
  obtain ⟨tell, hrun, htell⟩ := exists_run_eq h s
  have hcode : (i.run s).exitCode = (Answer.ofPrinted (tell plan)).exitCode := by
    rw [hrun, Answer.exitCode_ofReport, Report.result_bind, hplan]
    rfl
  rw [hcode]
  rcases htell plan with ⟨hprints, lines, hlines⟩ | ⟨hprints, hfault⟩
  · exact .inl ⟨hprints, by rw [hlines]; rfl⟩
  · exact .inr ⟨hprints, by rw [hfault]; exact Plan.exitCodeOf_unprintable⟩

/-- **The exit code of a command that builds a plan** is zero exactly if the settings can be loaded,
the plan can be built with them, and the command can print it.  If there are no settings or no
plan, it depends only on what the failure is about, and not on the names, paths and texts in it;
and if the plan is not printed, it is that of failures of no category of their own. -/
theorem run_exitCode (h : i.Builds o) (s : Surroundings) :
    ((i.run s).exitCode = 0 ↔ ∃ settings plan, o.settings i.config s = .ok settings ∧
      (buildPlan settings (o.vars s) o.manifest o.deployment).resultAt s.tree = .ok plan ∧
      i.Prints plan) ∧
    (∀ f, o.settings i.config s = .error f → (i.run s).exitCode = f.category.exitCode) ∧
    (∀ settings f, o.settings i.config s = .ok settings →
      (buildPlan settings (o.vars s) o.manifest o.deployment).resultAt s.tree = .error f →
      (i.run s).exitCode = f.category.exitCode) ∧
    ∀ settings plan, o.settings i.config s = .ok settings →
      (buildPlan settings (o.vars s) o.manifest o.deployment).resultAt s.tree = .ok plan →
      ¬ i.Prints plan → (i.run s).exitCode = FailureCategory.other.exitCode := by
  have hfailed := fun f => exitCode_of_error (f := f) (s := s) h
  have hbuilt := fun plan => exitCode_of_ok plan (s := s) h
  rw [build_result] at hfailed hbuilt
  refine ⟨⟨fun hzero => ?_, ?_⟩, fun f hf => ?_, fun settings f hsettings hf => ?_,
    fun settings plan hsettings hplan hprints => ?_⟩
  · cases hresult : o.settings i.config s >>= fun settings =>
      (buildPlan settings (o.vars s) o.manifest o.deployment).resultAt s.tree with
    | error f => exact absurd ((hfailed f hresult).symm.trans hzero) f.category.exitCode_ne_zero
    | ok plan =>
      obtain ⟨settings, hsettings, hplan⟩ := Except.bind_eq_ok_iff.mp hresult
      rcases hbuilt plan hresult with ⟨hprints, -⟩ | ⟨-, hother⟩
      · exact ⟨settings, plan, hsettings, hplan, hprints⟩
      · exact absurd (hother.symm.trans hzero) (FailureCategory.exitCode_ne_zero _)
  · rintro ⟨settings, plan, hsettings, hplan, hprints⟩
    have hcode := hbuilt plan (by rw [hsettings]; exact hplan)
    exact (hcode.resolve_right fun hother => hother.1 hprints).2
  · exact hfailed f (by rw [hf]; rfl)
  · exact hfailed f (by rw [hsettings]; exact hf)
  · have hcode := hbuilt plan (by rw [hsettings]; exact hplan)
    exact (hcode.resolve_left fun hzero => hprints hzero.1).2

end Invocation

/-! ## Commands on small trees -/

/-- A host on which the paths that are shown with a replacement character are no texts. -/
abbrev foreignHost : Host where
  packer _ _ := onePacker
  isText path := !Text.has (Char.ofNat 0xFFFD) path

attribute [local instance] foreignHost

namespace Invocation

/-- A manifest without packages is composed; a text that is no manifest is not valid. -/
theorem run_exitCode_of_texts :
    (Invocation.run { command := .compose {} }
        { tree := .ofTexts [("manifest.yaml", "packages: \x7b\x7d\n")] }).exitCode = 0 ∧
      (Invocation.run { command := .validate {} }
        { tree := .ofTexts [("manifest.yaml", "packages: 3\n")] }).exitCode = 2 := by
  have hsettings (t : FileTree) : ({} : BuildOptions).settings none { tree := t } = .ok {} := rfl
  constructor
  · have hmanifest : (FileTree.ofTexts [("manifest.yaml", "packages: \x7b\x7d\n")]).readText
        "manifest.yaml" = .ok _ := FileTree.readText_ofTexts (by decide +kernel) rfl
    have hplan : ∃ plan, (buildPlan {} {} "manifest.yaml" none).resultAt
        (.ofTexts [("manifest.yaml", "packages: \x7b\x7d\n")]) = .ok plan := by
      refine Except.exists_of_isOk ?_
      rw [buildPlan_none_resultAt, Manifest.load_resultAt hmanifest]
      decide +kernel
    obtain ⟨plan, hplan⟩ := hplan
    have hbuilds : ({ command := .compose {} } : Invocation).Builds {} := Or.inl rfl
    exact (run_exitCode hbuilds _).1.mpr ⟨{}, plan, hsettings _, hplan, fun _ => nofun⟩
  · have hmanifest : (FileTree.ofTexts [("manifest.yaml", "packages: 3\n")]).readText
        "manifest.yaml" = .ok _ := FileTree.readText_ofTexts (by decide +kernel) rfl
    have hrefused : (Manifest.parse "packages: 3\n").isOk = false := by decide +kernel
    cases hparse : Manifest.parse "packages: 3\n" with
    | ok m =>
      rw [hparse] at hrefused
      cases hrefused
    | error e =>
      have hfailure : (buildPlan {} {} "manifest.yaml" none).resultAt
          (.ofTexts [("manifest.yaml", "packages: 3\n")]) =
            .error (.invalidDocument "manifest.yaml" e) := by
        rw [buildPlan_none_resultAt, Manifest.load_resultAt hmanifest, hparse]
        rfl
      have hbuilds : ({ command := .validate {} } : Invocation).Builds {} := Or.inr rfl
      exact (run_exitCode hbuilds _).2.2.1 {} _ (hsettings _) hfailure

/-- A manifest with a dependency. -/
def utilsText : String :=
  "packages:\n  p:\n    dependencies:\n      d:\n        location: /whisk.system/utils\n"

/-- The manifest in a directory whose name is no text. -/
def foreignTree : FileTree where
  root := .directory 0o755 [("d\uFFFD", .directory 0o755
    [("manifest.yaml", .file 0o644 utilsText.toUTF8)])]

/-- It can be read. -/
theorem readText_foreignTree : foreignTree.readText "d\uFFFD/manifest.yaml" = .ok utilsText := by
  have hsteps : FileTree.steps "d\uFFFD/manifest.yaml" = ["d\uFFFD", "manifest.yaml"] := by
    decide +kernel
  have hrelative : FilePath.isAbsolute "d\uFFFD/manifest.yaml" = false := by decide +kernel
  have hwalk : FileTree.walk foreignTree.root FileTree.maxLinks [] ["d\uFFFD", "manifest.yaml"] =
      .ok (["d\uFFFD", "manifest.yaml"], .file 0o644 utilsText.toUTF8) := by
    rw [FileTree.walk_cons (by decide) (by decide +kernel) rfl, FileTree.walk]
    have hshort : "manifest.yaml".utf8ByteSize ≤ 255 := by decide +kernel
    simp [FileTree.maxName, hshort, foreignTree, FileEntry.get?, FileEntry.child?]
  have hresolve : foreignTree.resolve "d\uFFFD/manifest.yaml" = .ok _ :=
    FileTree.resolve_eq_ok_iff.mpr ⟨by decide +kernel, by decide +kernel, by decide +kernel,
      by rw [hsteps, hrelative]; exact hwalk⟩
  simp only [FileTree.readText, FileTree.read, hresolve, String.toUTF8_eq_toByteArray,
    Text.fromUTF8?_toByteArray]

/-- The plan of the manifest has a path that is no text. -/
theorem buildPlan_foreignTree :
    ∃ plan, (buildPlan {} {} "d\uFFFD/manifest.yaml" none).resultAt foreignTree = .ok plan ∧
      plan.paths = ["d\uFFFD/Packages"] := by
  obtain ⟨plan, hplan, hpaths⟩ := Except.exists_of_any
    (r := (buildPlan {} {} "d\uFFFD/manifest.yaml" none).resultAt foreignTree)
    (p := fun plan => plan.paths == ["d\uFFFD/Packages"]) (by
      rw [buildPlan_none_resultAt, Manifest.load_resultAt readText_foreignTree]
      decide +kernel)
  exact ⟨plan, hplan, eq_of_beq hpaths⟩

/-- In a tree without texts no document is found. -/
theorem load_ofTexts_nil {name : String} (hname : FileTree.IsName name) :
    (Manifest.load name).resultAt (.ofTexts []) =
      .error (.unreadableDocument name .notFound) := by
  obtain ⟨hne, hnul, hshort, hsteps, hdot, hdots⟩ := hname
  have hpath : name.utf8ByteSize ≤ FileTree.maxPath := Nat.le_trans hshort (by decide)
  have hresolve : (FileTree.ofTexts []).resolve name = .error .notFound := by
    rw [FileTree.resolve, if_neg (by simpa using hne), hnul, if_neg Bool.false_ne_true,
      if_neg (Nat.not_lt.mpr hpath), hsteps]
    dsimp only
    rw [FileTree.walk]
    simp [hdot, hdots, Nat.not_lt.mpr hshort, FileTree.ofTexts, FileEntry.get?, FileEntry.child?]
  simp only [Manifest.load, Compose.looking, Compose.resultAt, FileTree.readText, FileTree.read,
    hresolve]
  rfl

/-- **Building a plan does not decide the exit code.**  To ask for help with a command succeeds
without a manifest; and a plan that is built, but cannot be printed, ends the command with a
failure. -/
theorem run_exitCode_unprinted :
    ((Request.ofArguments ["compose", "--help"]).run { tree := .ofTexts [] }).exitCode = 0 ∧
      (∃ f, (buildPlan {} {} "manifest.yaml" none).resultAt (.ofTexts []) = .error f) ∧
      ∃ i o settings plan, Request.ofArguments ["--json", "compose", "d\uFFFD/manifest.yaml"] =
          .perform i ∧ i.Builds o ∧
        o.settings i.config { tree := foreignTree } = .ok settings ∧
        (buildPlan settings (o.vars { tree := foreignTree }) o.manifest o.deployment).resultAt
          foreignTree = .ok plan ∧
        (i.run { tree := foreignTree }).exitCode = 1 := by
  have hhelp : Request.ofArguments ["compose", "--help"] = .help := by decide +kernel
  refine ⟨by rw [hhelp]; rfl, ⟨.unreadableDocument "manifest.yaml" .notFound, ?_⟩, ?_⟩
  · rw [buildPlan_none_resultAt, load_ofTexts_nil (by decide +kernel)]
    rfl
  · let o : BuildOptions := { manifest := "d\uFFFD/manifest.yaml" }
    let i : Invocation := { json := true, command := .compose o }
    have hrequest : Request.ofArguments ["--json", "compose", "d\uFFFD/manifest.yaml"] =
        .perform i := by decide +kernel
    obtain ⟨plan, hplan, hpaths⟩ := buildPlan_foreignTree
    have hprints : ¬ i.Prints plan := by
      intro hprints
      have htexts := hprints ⟨o, rfl⟩ rfl
      rw [hpaths] at htexts
      exact absurd (htexts _ List.mem_cons_self) (by decide +kernel)
    have hbuilt : (o.build i.config { tree := foreignTree }).result = .ok plan := by
      rw [build_result]
      exact hplan
    have hcode := exitCode_of_ok plan (Or.inl rfl) hbuilt
    exact ⟨i, o, {}, plan, hrequest, .inl rfl, rfl, hplan,
      (hcode.resolve_left fun hzero => hprints hzero.1).2⟩

end Invocation

end DeployPlan
