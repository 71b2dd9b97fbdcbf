import DeployPlan.Plan.Decode
import DeployPlan.Plan.Encode
import DeployPlan.Proofs.Manifest.Fields
import DeployPlan.Proofs.WellFormed

/-!
# Plans that are written and read

A plan that is written as a JSON value is read from it again, with everything that was left out in
writing: lists without items, parts that are missing, limits none of which is set.  Values of
parameters are copied as they are, null among them.

## Main definitions

* `Plan.Fits` — the limits of all actions are integers of sixty-four bits.

## Main results

* `Json.get?_object_append` — a member of an object that is written field by field.
* `optionalMember_of_get?`, `memberOr_listOfJson?`, `mapOfJson?_mapToJson` — members that may have
  been left out, lists and maps are read as they were written.
* `Plan.ofJson?_toJson_of_fits` — so is a plan.
* `Plan.WellFormed.fits` — well-formed plans fit, those of documents among them.
-/

set_option autoImplicit false

namespace DeployPlan

/-! ## Plans that fit -/

/-- Limits of sixty-four bits. -/
structure Limits.Fits (l : Limits) : Prop where
  timeout : ∀ n, l.timeout = some n → Yaml.Decoder.Fits n
  memory : ∀ n, l.memory = some n → Yaml.Decoder.Fits n
  logs : ∀ n, l.logs = some n → Yaml.Decoder.Fits n

/-- An action whose limits fit. -/
def ActionRecord.Fits (r : ActionRecord) : Prop := ∀ l, r.action.limits = some l → l.Fits

/-- A package whose actions fit. -/
structure PackagePlan.Fits (q : PackagePlan) : Prop where
  actions : ∀ name r, q.actions.get? name = some r → r.Fits
  sequences : ∀ name r, q.sequences.get? name = some r → r.Fits

/-- **A plan fits** if the limits of all actions are integers of sixty-four bits. -/
def Plan.Fits (p : Plan) : Prop := ∀ name q, p.packages.get? name = some q → q.Fits

/-- A value fits that is within bounds that fit. -/
theorem LimitBounds.fits_of_bounds {b : LimitBounds} (hleast : -(Int.pow 2 63) ≤ b.least)
    (hgreatest : b.greatest < Int.pow 2 63) {n : Int} (h : b.least ≤ n ∧ n ≤ b.greatest) :
    Yaml.Decoder.Fits n :=
  ⟨Int.le_trans hleast h.1, Int.lt_of_le_of_lt h.2 hgreatest⟩

/-- Limits within their bounds fit. -/
theorem Limits.Keeps.fits {declared : LimitsSpec} {l : Limits} (h : l.Keeps declared) :
    l.Fits where
  timeout n hn := LimitBounds.fits_of_bounds (by decide) (by decide) (h.timeout n hn).2
  memory n hn := LimitBounds.fits_of_bounds (by decide) (by decide) (h.memory n hn).2
  logs n hn := LimitBounds.fits_of_bounds (by decide) (by decide) (h.logs n hn).2

/-- **Well-formed plans fit.** -/
theorem Plan.WellFormed.fits {m : Manifest} {t : FileTree} {p : Plan} (h : p.WellFormed m t) :
    p.Fits := by
  intro name q hq
  obtain ⟨_, -, hwell⟩ := h.packages.get?_right hq
  constructor
  case actions =>
    intro action r hr l hl
    obtain ⟨_, -, hrecord⟩ := hwell.actions.get?_right hr
    obtain ⟨_, -, hkept⟩ := hrecord.limits l hl
    exact hkept.fits
  case sequences =>
    intro sequence r hr l hl
    obtain ⟨_, -, hrecord⟩ := hwell.sequences.get?_right hr
    cases hrecord.limits.symm.trans hl

/-! ## Members of written objects -/

section Members

variable {α : Type} {toJson : α → Json} {ofJson? : Json → Option α} {name : String} {v : Json}

namespace Json

/-- The member of an object is its last entry under the key. -/
theorem get?_object (k : String) (entries : List (String × Json)) :
    (object entries).get? k = Entries.find? k entries.reverse := by
  have h : (object entries).get? k = (KeyMap.ofList entries).get? k := rfl
  rw [h, KeyMap.ofList, KeyMap.get?_insertAll, KeyMap.get?_empty, Option.or_none]

/-- An object without entries has no member. -/
@[simp] theorem get?_object_nil (k : String) : (object []).get? k = none := rfl

/-- Of fields that are written in turn, the later count first. -/
@[simp] theorem get?_object_append (k : String) (fields fields' : List (String × Json)) :
    (object (fields ++ fields')).get? k =
      ((object fields').get? k).or ((object fields).get? k) := by
  simp only [get?_object, List.reverse_append, Entries.find?_append]

/-- The same for a single field before others. -/
@[simp] theorem get?_object_cons (k : String) (e : String × Json)
    (fields : List (String × Json)) :
    (object (e :: fields)).get? k =
      ((object fields).get? k).or (if k = e.1 then some e.2 else none) := by
  rw [get?_object, List.reverse_cons, Entries.find?_append, ← get?_object]
  rfl

/-- The member that is written for something that may be missing. -/
@[simp] theorem get?_object_optionalField (k : String) (o : Option α) :
    (object (optionalField name toJson o)).get? k = if k = name then o.map toJson else none := by
  cases o <;> simp [optionalField]

/-- The member that is written for a list. -/
@[simp] theorem get?_object_listField (k : String) (l : List α) :
    (object (listField name toJson l)).get? k =
      if k = name then (if l = [] then none else some (.arr (l.map toJson))) else none := by
  cases l <;> simp [listField]

end Json

/-- A member that is there is read. -/
theorem requiredMember_of_get? (w : Json) {a : α} (h : v.get? name = some w)
    (hread : ofJson? w = some a) : requiredMember ofJson? name v = some a := by
  rw [requiredMember, h, Option.bind_some, hread]

/-- The same for a member that has a default. -/
theorem memberOr_of_get? (w : Json) {default a : α} (h : v.get? name = some w)
    (hread : ofJson? w = some a) : memberOr ofJson? default name v = some a := by
  rw [memberOr, h]
  exact hread

/-- Something that may have been left out is read as it was written, if null is not read. -/
theorem optionalMember_of_get? (toJson : α → Json) {o : Option α}
    (h : v.get? name = o.map toJson) (hnull : ofJson? .null = none)
    (hread : ∀ a, o = some a → ofJson? (toJson a) = some a) :
    optionalMember ofJson? name v = some o := by
  rw [optionalMember, h]
  cases o with
  | none => rfl
  | some a =>
    rw [Option.map_some]
    split
    · contradiction
    · rename_i hsome
      have hread := hread a rfl
      rw [Option.some.inj hsome, hnull] at hread
      contradiction
    · rename_i hsome
      rw [← Option.some.inj hsome, hread a rfl, Option.map_some]

/-- Items are read as they were written. -/
theorem mapM_map_of_read {β γ : Type} {write : β → γ} {read? : γ → Option β} {l : List β}
    (hread : ∀ b ∈ l, read? (write b) = some b) : (l.map write).mapM read? = some l := by
  induction l with
  | nil => rfl
  | cons b l ih =>
    have hl : (l.map write).mapM read? = some l :=
      ih fun b hb => hread b (List.mem_cons_of_mem _ hb)
    simp [hread b List.mem_cons_self, hl]

/-- A list is read as it was written. -/
theorem listOfJson?_map {l : List α} (hread : ∀ a ∈ l, ofJson? (toJson a) = some a) :
    listOfJson? ofJson? (.arr (l.map toJson)) = some l :=
  mapM_map_of_read hread

/-- So is a list that is left out when it is empty. -/
theorem memberOr_listOfJson? (toJson : α → Json) {l : List α}
    (h : v.get? name = if l = [] then none else some (.arr (l.map toJson)))
    (hread : ∀ a ∈ l, ofJson? (toJson a) = some a) :
    memberOr (listOfJson? ofJson?) [] name v = some l := by
  rw [memberOr, h]
  cases l with
  | nil => rfl
  | cons a l => exact listOfJson?_map hread

/-- **A map is read as it was written.** -/
theorem mapOfJson?_mapToJson {m : KeyMap α}
    (hread : ∀ k a, m.get? k = some a → ofJson? (toJson a) = some a) :
    mapOfJson? ofJson? (mapToJson toJson m) = some m := by
  have hentries : (m.entries.map fun e => (e.1, toJson e.2)).mapM
      (fun e => (ofJson? e.2).map fun a => (e.1, a)) = some m.entries := by
    refine mapM_map_of_read fun (e : String × α) he => ?_
    rw [hread e.1 e.2 (KeyMap.mem_entries_iff.mp he), Option.map_some]
  rw [mapOfJson?, mapToJson, Json.obj?, Option.bind_some, hentries, Option.map_some,
    KeyMap.ofList_entries]

end Members

/-! ## Entities -/

/-- An entry is read as it was written, null values among them. -/
theorem KeyValue.ofJson?_toJson (kv : KeyValue) : ofJson? kv.toJson = some kv := by
  have hkey : requiredMember Json.str? "key" kv.toJson = some kv.key :=
    requiredMember_of_get? (.str kv.key) (by simp [toJson]) rfl
  have hvalue : kv.toJson.get? "value" = some kv.value := by simp [toJson]
  simp [ofJson?, hkey, hvalue]

/-- The fields of parameters and annotations are read as they were written. -/
theorem keyValueMembers_of_get? (v : Json) (parameters annotations : List KeyValue)
    (h : ∀ k ∈ ["parameters", "annotations"],
      v.get? k = (Json.object (keyValueFields parameters annotations)).get? k) :
    keyValuesMember "parameters" v = some parameters ∧
      keyValuesMember "annotations" v = some annotations := by
  constructor
  · refine memberOr_listOfJson? KeyValue.toJson ?_ fun kv _ => kv.ofJson?_toJson
    rw [h _ (by simp)]
    simp [keyValueFields]
  · refine memberOr_listOfJson? KeyValue.toJson ?_ fun kv _ => kv.ofJson?_toJson
    rw [h _ (by simp)]
    simp [keyValueFields]

/-- The fields that every named entity has are read as they were written. -/
theorem nameMembers_of_get? (v : Json) (name ns : String) (publish : Bool)
    (h : ∀ e ∈ nameFields name ns publish, v.get? e.1 = some e.2) :
    requiredMember Json.str? "name" v = some name ∧
      requiredMember Json.str? "namespace" v = some ns ∧
      requiredMember Json.bool? "publish" v = some publish := by
  simp only [nameFields, List.forall_mem_cons] at h
  obtain ⟨hname, hns, hpublish, -⟩ := h
  exact ⟨requiredMember_of_get? _ hname rfl, requiredMember_of_get? _ hns rfl,
    requiredMember_of_get? _ hpublish rfl⟩

/-- What an action runs is read as it was written. -/
theorem Exec.ofJson?_toJson (e : Exec) : ofJson? e.toJson = some e := by
  have hkind : requiredMember Json.str? "kind" e.toJson = some e.kind :=
    requiredMember_of_get? (.str e.kind) (by simp [toJson]) rfl
  have hcode : optionalMember Json.str? "code" e.toJson = some e.code :=
    optionalMember_of_get? .str (by simp [toJson]) rfl fun _ _ => rfl
  have hmain : optionalMember Json.str? "main" e.toJson = some e.main :=
    optionalMember_of_get? .str (by simp [toJson]) rfl fun _ _ => rfl
  have hcomponents :
      memberOr (listOfJson? Json.str?) [] "components" e.toJson = some e.components :=
    memberOr_listOfJson? .str (by simp [toJson]) fun _ _ => rfl
  have hbinary : memberOr Json.bool? false "binary" e.toJson = some e.binary :=
    memberOr_of_get? (.bool e.binary) (by simp [toJson]) rfl
  simp [ofJson?, hkind, hcode, hmain, hcomponents, hbinary]

/-- An integer that fits is read as it was written. -/
theorem wordOfJson?_int {n : Int} (h : Yaml.Decoder.Fits n) : wordOfJson? (.int n) = some n := by
  have hkept : (decide (-(Int.pow 2 63) ≤ n) && decide (n < Int.pow 2 63)) = true := by
    rw [decide_eq_true h.1, decide_eq_true h.2, Bool.and_self]
  rw [wordOfJson?, Json.int?, Option.filter_some, if_pos hkept]

/-- Limits are read as they were written, also if none of them is set. -/
theorem Limits.ofJson?_toJson {l : Limits} (h : l.Fits) : ofJson? l.toJson = some l := by
  have htimeout : optionalMember wordOfJson? "timeout" l.toJson = some l.timeout :=
    optionalMember_of_get? .int (by simp [toJson]) rfl fun n hn =>
      wordOfJson?_int (h.timeout n hn)
  have hmemory : optionalMember wordOfJson? "memory" l.toJson = some l.memory :=
    optionalMember_of_get? .int (by simp [toJson]) rfl fun n hn =>
      wordOfJson?_int (h.memory n hn)
  have hlogs : optionalMember wordOfJson? "logs" l.toJson = some l.logs :=
    optionalMember_of_get? .int (by simp [toJson]) rfl fun n hn =>
      wordOfJson?_int (h.logs n hn)
  have hobject : ∃ entries, l.toJson.obj? = some entries := ⟨_, rfl⟩
  obtain ⟨entries, hentries⟩ := hobject
  simp [ofJson?, hentries, htimeout, hmemory, hlogs]

/-- An action is read as it was written. -/
theorem Action.ofJson?_toJson {a : Action} (h : ∀ l, a.limits = some l → l.Fits) :
    ofJson? a.toJson = some a := by
  obtain ⟨hname, hns, hpublish⟩ := nameMembers_of_get? a.toJson a.name a.namespace a.publish
    (by simp [toJson, nameFields, keyValueFields])
  obtain ⟨hparameters, hannotations⟩ := keyValueMembers_of_get? a.toJson a.parameters a.annotations
    (by simp [toJson, nameFields, keyValueFields])
  have hexec : optionalMember Exec.ofJson? "exec" a.toJson = some a.exec :=
    optionalMember_of_get? Exec.toJson (by simp [toJson, nameFields, keyValueFields]) rfl
      fun e _ => e.ofJson?_toJson
  have hlimits : optionalMember Limits.ofJson? "limits" a.toJson = some a.limits :=
    optionalMember_of_get? Limits.toJson (by simp [toJson, nameFields, keyValueFields]) rfl
      fun l hl => Limits.ofJson?_toJson (h l hl)
  simp [ofJson?, hname, hns, hpublish, hexec, hparameters, hannotations, hlimits]

/-- An action and where it comes from are read as they were written. -/
theorem ActionRecord.ofJson?_toJson {r : ActionRecord} (h : r.Fits) :
    ofJson? r.toJson = some r := by
  have haction : requiredMember Action.ofJson? "action" r.toJson = some r.action :=
    requiredMember_of_get? r.action.toJson (by simp [toJson]) (Action.ofJson?_toJson h)
  have hpackage : requiredMember Json.str? "package_name" r.toJson = some r.packageName :=
    requiredMember_of_get? (.str r.packageName) (by simp [toJson]) rfl
  have hpath : requiredMember Json.str? "file_path" r.toJson = some r.filePath :=
    requiredMember_of_get? (.str r.filePath) (by simp [toJson]) rfl
  simp [ofJson?, haction, hpackage, hpath]

/-- A package is read as it was written. -/
theorem Package.ofJson?_toJson (p : Package) : ofJson? p.toJson = some p := by
  obtain ⟨hname, hns, hpublish⟩ := nameMembers_of_get? p.toJson p.name p.namespace p.publish
    (by simp [toJson, nameFields, keyValueFields])
  obtain ⟨hparameters, hannotations⟩ := keyValueMembers_of_get? p.toJson p.parameters p.annotations
    (by simp [toJson, nameFields])
  simp [ofJson?, hname, hns, hpublish, hparameters, hannotations]

/-- A trigger is read as it was written. -/
theorem Trigger.ofJson?_toJson (t : Trigger) : ofJson? t.toJson = some t := by
  obtain ⟨hname, hns, hpublish⟩ := nameMembers_of_get? t.toJson t.name t.namespace t.publish
    (by simp [toJson, nameFields, keyValueFields])
  obtain ⟨hparameters, hannotations⟩ := keyValueMembers_of_get? t.toJson t.parameters t.annotations
    (by simp [toJson, nameFields])
  simp [ofJson?, hname, hns, hpublish, hparameters, hannotations]

/-- A rule is read as it was written. -/
theorem Rule.ofJson?_toJson (r : Rule) : ofJson? r.toJson = some r := by
  obtain ⟨hname, hns, hpublish⟩ := nameMembers_of_get? r.toJson r.name r.namespace r.publish
    (by simp [toJson, nameFields])
  have htrigger : requiredMember Json.str? "trigger" r.toJson = some r.trigger :=
    requiredMember_of_get? (.str r.trigger) (by simp [toJson, nameFields]) rfl
  have haction : requiredMember Json.str? "action" r.toJson = some r.action :=
    requiredMember_of_get? (.str r.action) (by simp [toJson, nameFields]) rfl
  simp [ofJson?, hname, hns, hpublish, htrigger, haction]

/-- The request that creates a route is read as it was written. -/
theorem Route.ofRequestJson?_requestToJson (r : Route) :
    ofRequestJson? r.requestToJson = some r := by
  have hroute : ofJson? r.toJson = some r := by simp [ofJson?, requiredMember, toJson, Json.str?]
  exact requiredMember_of_get? r.toJson (by simp [requestToJson]) hroute

/-- A kind is read by its word. -/
theorem DependencyKind.ofJson?_word (kind : DependencyKind) :
    ofJson? (.str kind.word) = some kind := by
  cases kind <;> rfl

/-- A dependency is read as it was written. -/
theorem DependencyRecord.ofJson?_toJson (d : DependencyRecord) : ofJson? d.toJson = some d := by
  have hpath : requiredMember Json.str? "project_path" d.toJson = some d.projectPath :=
    requiredMember_of_get? (.str d.projectPath) (by simp [toJson, keyValueFields]) rfl
  have hpackage : requiredMember Json.str? "package_name" d.toJson = some d.packageName :=
    requiredMember_of_get? (.str d.packageName) (by simp [toJson, keyValueFields]) rfl
  have hlocation : requiredMember Json.str? "location" d.toJson = some d.location :=
    requiredMember_of_get? (.str d.location) (by simp [toJson, keyValueFields]) rfl
  have hversion : requiredMember Json.str? "version" d.toJson = some d.version :=
    requiredMember_of_get? (.str d.version) (by simp [toJson, keyValueFields]) rfl
  have hkind : requiredMember DependencyKind.ofJson? "kind" d.toJson = some d.kind :=
    requiredMember_of_get? (.str d.kind.word) (by simp [toJson, keyValueFields])
      d.kind.ofJson?_word
  have hbase : optionalMember Json.str? "base_repo" d.toJson = some d.baseRepo :=
    optionalMember_of_get? .str (by simp [toJson, keyValueFields]) rfl fun _ _ => rfl
  have hfolder : optionalMember Json.str? "sub_folder" d.toJson = some d.subFolder :=
    optionalMember_of_get? .str (by simp [toJson, keyValueFields]) rfl fun _ _ => rfl
  obtain ⟨hparameters, hannotations⟩ := keyValueMembers_of_get? d.toJson d.parameters d.annotations
    (by simp [toJson, keyValueFields])
  simp [ofJson?, hpath, hpackage, hlocation, hversion, hkind, hbase, hfolder, hparameters,
    hannotations]

/-! ## Plans -/

/-- A map of actions is read as it was written. -/
theorem recordsMember_of_get? {name : String} {v : Json} {m : KeyMap ActionRecord}
    (h : v.get? name = some (mapToJson ActionRecord.toJson m))
    (hfits : ∀ k r, m.get? k = some r → r.Fits) : recordsMember name v = some m :=
  memberOr_of_get? _ h <| mapOfJson?_mapToJson fun k r hr =>
    ActionRecord.ofJson?_toJson (hfits k r hr)

/-- A package with its actions and sequences is read as it was written. -/
theorem PackagePlan.ofJson?_toJson {q : PackagePlan} (h : q.Fits) :
    ofJson? q.toJson = some q := by
  have hpackage : requiredMember Package.ofJson? "package" q.toJson = some q.package :=
    requiredMember_of_get? q.package.toJson (by simp [toJson]) q.package.ofJson?_toJson
  have hactions : recordsMember "actions" q.toJson = some q.actions :=
    recordsMember_of_get? (by simp [toJson]) h.actions
  have hsequences : recordsMember "sequences" q.toJson = some q.sequences :=
    recordsMember_of_get? (by simp [toJson]) h.sequences
  simp [ofJson?, hpackage, hactions, hsequences]

/-- **A plan is read as it was written**, with everything that was left out in writing.

**Proof sketch.** Entity by entity, from the leaves: a field is read as it was written if no field
after it has its key, and a field that was left out is read as the value for which it is left
out. -/
theorem Plan.ofJson?_toJson_of_fits {p : Plan} (h : p.Fits) : ofJson? p.toJson = some p := by
  have hpackages :
      requiredMember (mapOfJson? PackagePlan.ofJson?) "packages" p.toJson = some p.packages :=
    requiredMember_of_get? (mapToJson PackagePlan.toJson p.packages) (by simp [toJson]) <|
      mapOfJson?_mapToJson fun name q hq => PackagePlan.ofJson?_toJson (h name q hq)
  have htriggers : memberOr (mapOfJson? Trigger.ofJson?) .empty "triggers" p.toJson =
      some p.triggers :=
    memberOr_of_get? (mapToJson Trigger.toJson p.triggers) (by simp [toJson]) <|
      mapOfJson?_mapToJson fun _ t _ => t.ofJson?_toJson
  have hrules : memberOr (mapOfJson? Rule.ofJson?) .empty "rules" p.toJson = some p.rules :=
    memberOr_of_get? (mapToJson Rule.toJson p.rules) (by simp [toJson]) <|
      mapOfJson?_mapToJson fun _ r _ => r.ofJson?_toJson
  have hroutes : memberOr (listOfJson? Route.ofRequestJson?) [] "apis" p.toJson =
      some p.routes :=
    memberOr_of_get? (.arr (p.routes.map Route.requestToJson)) (by simp [toJson]) <|
      listOfJson?_map fun r _ => r.ofRequestJson?_requestToJson
  have hdependencies : memberOr (mapOfJson? DependencyRecord.ofJson?) .empty "dependencies"
      p.toJson = some p.dependencies :=
    memberOr_of_get? (mapToJson DependencyRecord.toJson p.dependencies) (by simp [toJson]) <|
      mapOfJson?_mapToJson fun _ d _ => d.ofJson?_toJson
  simp [ofJson?, hpackages, htriggers, hrules, hroutes, hdependencies]

/-- An action with a null parameter, that runs nothing and has limits none of which is set. -/
def refundRecord : ActionRecord where
  action := ⟨"refund", "_", false, none, [⟨"note", .null⟩, ⟨"tags", .arr []⟩], [], some {}⟩
  packageName := "shop"
  filePath := ""

/-- A sequence of it. -/
def returnsRecord : ActionRecord where
  action := ⟨"returns", "_", false,
    some { kind := "sequence", components := ["/_/shop/refund"] }, [], [], none⟩
  packageName := "shop"
  filePath := "returns"

/-- A plan with something of each kind. -/
def returnsPlan : Plan where
  packages := .single "shop"
    { package := ⟨"shop", "_", false, [], [⟨"managed", .obj []⟩]⟩
      actions := .single "refund" refundRecord
      sequences := .single "returns" returnsRecord }
  triggers := .single "tick" ⟨"tick", "_", false, [], []⟩
  rules := .single "hourly" ⟨"hourly", "_", false, "tick", "shop/refund"⟩
  routes := [⟨"_", "store", "/v1", "/refund", "POST", "shop/refund", "_", "POST"⟩]
  dependencies := .single "utils"
    ⟨"", "utils", "/whisk.system/utils", "master", .binding, none, some "lib", [], []⟩

/-- The plan fits and is read as it was written. -/
theorem Plan.ofJson?_returnsPlan :
    returnsPlan.Fits ∧ ofJson? returnsPlan.toJson = some returnsPlan := by
  have hrefund : refundRecord.Fits := by
    intro l hl
    cases hl
    exact ⟨nofun, nofun, nofun⟩
  have hreturns : returnsRecord.Fits := nofun
  have hfits : returnsPlan.Fits := by
    intro name q hq
    obtain ⟨-, rfl⟩ := KeyMap.get?_single_eq_some_iff.mp hq
    constructor
    case actions =>
      intro name r hr
      obtain ⟨-, rfl⟩ := KeyMap.get?_single_eq_some_iff.mp hr
      exact hrefund
    case sequences =>
      intro name r hr
      obtain ⟨-, rfl⟩ := KeyMap.get?_single_eq_some_iff.mp hr
      exact hreturns
  exact ⟨hfits, ofJson?_toJson_of_fits hfits⟩

end DeployPlan
