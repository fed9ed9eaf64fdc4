import OpenMetrics.Library.Data
import OpenMetrics.KubeLib.Resources

/-! What the derived `Serialize` and `Deserialize` make of the `spec` of a resource
(`kube-metrics-multi-tenancy-lib/src/lib.rs`), and the schema that the CRD gives for it
(`config/crd`). -/

namespace OpenMetrics.KubeLib
open Library Data

def RuleSpec.fields (order : HashOrder String) (rule : RuleSpec) : List (String × Data) :=
  writeOptional "alert" .string rule.alert ++
  writeOptional "annotations" (writeStrings order) rule.annotations ++
  writeOptional "labels" (writeStrings order) rule.labels ++
  writeOptional "record" .string rule.record ++
  writeOptional "for" .string rule.for_ ++
  [("expr", .string rule.expr)]

def RuleSpec.serialize (order : HashOrder String) (rule : RuleSpec) : Data :=
  .object (rule.fields order)

def RuleSpec.deserialize : Data → Option RuleSpec
  | .object fields => do
      let alert ← optional readString "alert" fields
      let annotations ← optional readStrings "annotations" fields
      let labels ← optional readStrings "labels" fields
      let record ← optional readString "record" fields
      let for_ ← optional readString "for" fields
      let expr ← required readString "expr" fields
      pure { alert, annotations, labels, record, for_, expr }
  | .array [alert, annotations, labels, record, for_, expr] => do
      let alert ← nullable readString alert
      let annotations ← nullable readStrings annotations
      let labels ← nullable readStrings labels
      let record ← nullable readString record
      let for_ ← nullable readString for_
      let expr ← readString expr
      pure { alert, annotations, labels, record, for_, expr }
  | _ => none

def GroupSpec.fields (order : HashOrder String) (group : GroupSpec) : List (String × Data) :=
  [("name", .string group.name)] ++
  writeOptional "interval" .string group.interval ++
  [("rules", .array (group.rules.map (RuleSpec.serialize order)))]

def GroupSpec.serialize (order : HashOrder String) (group : GroupSpec) : Data :=
  .object (group.fields order)

def GroupSpec.deserialize : Data → Option GroupSpec
  | .object fields => do
      let name ← required readString "name" fields
      let interval ← optional readString "interval" fields
      let rules ← required (readList RuleSpec.deserialize) "rules" fields
      pure { name, interval, rules }
  | .array [name, interval, rules] => do
      let name ← readString name
      let interval ← nullable readString interval
      let rules ← readList RuleSpec.deserialize rules
      pure { name, interval, rules }
  | _ => none

def OpenMetricsRuleSpec.fields (order : HashOrder String) (spec : OpenMetricsRuleSpec) :
    List (String × Data) :=
  writeNonEmpty "tenants" .string spec.tenants ++
  writeOptional "description" .string spec.description ++
  writeNonEmpty "groups" (GroupSpec.serialize order) spec.groups

def OpenMetricsRuleSpec.serialize (order : HashOrder String) (spec : OpenMetricsRuleSpec) : Data :=
  .object (spec.fields order)

def OpenMetricsRuleSpec.deserialize : Data → Option OpenMetricsRuleSpec
  | .object fields => do
      let tenants ← withDefault (readList readString) "tenants" fields []
      let description ← optional readString "description" fields
      let groups ← withDefault (readList GroupSpec.deserialize) "groups" fields []
      pure { tenants, description, groups }
  | .array [tenants, description] => do
      let tenants ← readList readString tenants
      let description ← nullable readString description
      pure { tenants, description, groups := [] }
  | .array [tenants, description, groups] => do
      let tenants ← readList readString tenants
      let description ← nullable readString description
      let groups ← readList GroupSpec.deserialize groups
      pure { tenants, description, groups }
  | _ => none

theorem RuleSpec.deserialize_serialize (order : HashOrder String) (rule : RuleSpec) :
    deserialize (rule.serialize order) = some rule := by
  have alert : optional readString "alert" (rule.fields order) = some rule.alert :=
    optional_written readString_string (fun _ => nofun) (by simp [fields])
  have annotations : optional readStrings "annotations" (rule.fields order) =
      some rule.annotations :=
    optional_written (readStrings_written order) (fun _ => nofun) (by simp [fields])
  have labels : optional readStrings "labels" (rule.fields order) = some rule.labels :=
    optional_written (readStrings_written order) (fun _ => nofun) (by simp [fields])
  have record : optional readString "record" (rule.fields order) = some rule.record :=
    optional_written readString_string (fun _ => nofun) (by simp [fields])
  have for_ : optional readString "for" (rule.fields order) = some rule.for_ :=
    optional_written readString_string (fun _ => nofun) (by simp [fields])
  have expr : required readString "expr" (rule.fields order) = some rule.expr :=
    required_written readString_string (by simp [fields])
  rw [serialize, deserialize, alert, annotations, labels, record, for_, expr]
  rfl

theorem GroupSpec.deserialize_serialize (order : HashOrder String) (group : GroupSpec) :
    deserialize (group.serialize order) = some group := by
  have name : required readString "name" (group.fields order) = some group.name :=
    required_written readString_string (by simp [fields])
  have interval : optional readString "interval" (group.fields order) = some group.interval :=
    optional_written readString_string (fun _ => nofun) (by simp [fields])
  have rules : required (readList RuleSpec.deserialize) "rules" (group.fields order) =
      some group.rules :=
    required_written (readList_written (RuleSpec.deserialize_serialize order)) (by simp [fields])
  rw [serialize, deserialize, name, interval, rules]
  rfl

theorem OpenMetricsRuleSpec.deserialize_serialize (order : HashOrder String)
    (spec : OpenMetricsRuleSpec) : deserialize (spec.serialize order) = some spec := by
  have tenants : withDefault (readList readString) "tenants" (spec.fields order) [] =
      some spec.tenants := withDefault_written readString_string (by simp [fields])
  have description : optional readString "description" (spec.fields order) =
      some spec.description :=
    optional_written readString_string (fun _ => nofun) (by simp [fields])
  have groups : withDefault (readList GroupSpec.deserialize) "groups" (spec.fields order) [] =
      some spec.groups :=
    withDefault_written (GroupSpec.deserialize_serialize order) (by simp [fields])
  rw [serialize, deserialize, tenants, description, groups]
  rfl

def ruleSchema : Schema :=
  .mk none
    [("alert", .typed .string), ("annotations", .typed .object), ("expr", .typed .string),
      ("for", .typed .string), ("labels", .typed .object), ("record", .typed .string)]
    ["expr"] none

def groupSchema : Schema :=
  .mk none
    [("interval", .typed .string), ("name", .typed .string), ("rules", .listOf ruleSchema)]
    ["name", "rules"] none

def specSchema : Schema :=
  .mk none
    [("tenants", .listOf (.typed .string)), ("description", .typed .string),
      ("groups", .listOf groupSchema)]
    ["tenants"] none

theorem RuleSpec.accepted (order : HashOrder String) (rule : RuleSpec) :
    ruleSchema.accepts (rule.serialize order) := by
  rw [serialize, ruleSchema, Schema.accepts_object]
  simp [fields, writeStrings, kind]

theorem GroupSpec.accepted (order : HashOrder String) (group : GroupSpec) :
    groupSchema.accepts (group.serialize order) := by
  rw [serialize, groupSchema, Schema.accepts_object]
  simp [fields, kind, RuleSpec.accepted]

theorem OpenMetricsRuleSpec.accepted_iff (order : HashOrder String) (spec : OpenMetricsRuleSpec) :
    specSchema.accepts (spec.serialize order) ↔ spec.tenants ≠ [] := by
  rw [serialize, specSchema, Schema.accepts_object]
  simp [fields, kind, GroupSpec.accepted]

/-- A resource without tenants is written without the field that the CRD requires. -/
theorem spec_roundtrip (order : HashOrder String) (spec : OpenMetricsRuleSpec) :
    OpenMetricsRuleSpec.deserialize (spec.serialize order) = some spec ∧
      (specSchema.accepts (spec.serialize order) ↔ spec.tenants ≠ []) :=
  ⟨spec.deserialize_serialize order, spec.accepted_iff order⟩

theorem RuleSpec.reads_iff {rule : Data} (record : rule.IsRecord)
    (accepted : ruleSchema.accepts rule) : (deserialize rule).isSome ↔
      ∀ name ∈ ["annotations", "labels"], ∀ v ∈ field name rule.entries, v.Texts := by
  obtain ⟨fields, rfl, nodup⟩ := record
  rw [ruleSchema, Schema.accepts_object] at accepted
  simp only [List.forall_mem_cons, Schema.accepts_typed] at accepted
  obtain ⟨⟨given, -⟩, alert, annotations, expr, for_, labels, record, -⟩ := accepted
  have chain : (deserialize (.object fields)).isSome ↔ _ :=
    isSome_bind_iff fun _ => isSome_bind_iff fun _ => isSome_bind_iff fun _ =>
      isSome_bind_iff fun _ => isSome_bind_iff fun _ => isSome_bind_iff fun _ =>
        iff_of_true rfl trivial
  have text : field "expr" fields ≠ [] ∧ ∀ v ∈ field "expr" fields, (readString v).isSome :=
    ⟨given, fun v member => readString_isSome.mpr (expr v member)⟩
  rw [chain, optional_isSome nodup, optional_isSome nodup, optional_isSome nodup,
    optional_isSome nodup, optional_isSome nodup, required_isSome nodup,
    and_iff_right fun v member => nullable_string (alert v member),
    forall₂_congr fun v member => nullable_strings (annotations v member),
    forall₂_congr fun v member => nullable_strings (labels v member),
    and_iff_right fun v member => nullable_string (record v member),
    and_iff_right fun v member => nullable_string (for_ v member),
    and_iff_left trivial, and_iff_left text]
  simp [entries]

theorem GroupSpec.reads_iff {group : Data} (record : group.IsRecord)
    (accepted : groupSchema.accepts group) : (deserialize group).isSome ↔
      ∀ rule ∈ (field "rules" group.entries).flatMap items, (RuleSpec.deserialize rule).isSome := by
  obtain ⟨fields, rfl, nodup⟩ := record
  rw [groupSchema, Schema.accepts_object] at accepted
  simp only [List.forall_mem_cons, Schema.accepts_typed, Schema.accepts_listOf] at accepted
  obtain ⟨⟨named, given, -⟩, interval, name, rules, -⟩ := accepted
  have chain : (deserialize (.object fields)).isSome ↔ _ :=
    isSome_bind_iff fun _ => isSome_bind_iff fun _ => isSome_bind_iff fun _ =>
      iff_of_true rfl trivial
  rw [chain, required_isSome nodup, optional_isSome nodup, required_isSome nodup,
    and_iff_right ⟨named, fun v member => readString_isSome.mpr (name v member)⟩,
    and_iff_right fun v member => nullable_string (interval v member),
    and_iff_left trivial, and_iff_right given]
  exact readList_isSome_iff fun v member => (rules v member).imp fun _ => And.left

def groupsIn (spec : Data) : List Data := (field "groups" spec.entries).flatMap items

def rulesIn (spec : Data) : List Data :=
  (groupsIn spec).flatMap fun group => (field "rules" group.entries).flatMap items

theorem OpenMetricsRuleSpec.reads_iff {spec : Data} (record : spec.IsRecord)
    (accepted : specSchema.accepts spec) :
    (deserialize spec).isSome ↔ ∀ group ∈ groupsIn spec, (GroupSpec.deserialize group).isSome := by
  obtain ⟨fields, rfl, nodup⟩ := record
  rw [specSchema, Schema.accepts_object] at accepted
  simp only [List.forall_mem_cons, Schema.accepts_typed, Schema.accepts_listOf] at accepted
  obtain ⟨-, tenants, description, groups, -⟩ := accepted
  have listed : ∀ v ∈ field "tenants" fields, (readList readString v).isSome := by
    intro v member
    obtain ⟨l, rfl, texts⟩ := tenants v member
    exact readList_isSome.mpr fun item member => readString_isSome.mpr (texts item member)
  have chain : (deserialize (.object fields)).isSome ↔ _ :=
    isSome_bind_iff fun _ => isSome_bind_iff fun _ => isSome_bind_iff fun _ =>
      iff_of_true rfl trivial
  rw [chain, withDefault_isSome nodup, optional_isSome nodup, withDefault_isSome nodup,
    and_iff_right listed, and_iff_right fun v member => nullable_string (description v member),
    and_iff_left trivial]
  exact readList_isSome_iff fun v member => (groups v member).imp fun _ => And.left

theorem accepted_reads_iff {spec : Data} (accepted : specSchema.accepts spec)
    (record : spec.IsRecord) (groups : ∀ group ∈ groupsIn spec, group.IsRecord)
    (rules : ∀ rule ∈ rulesIn spec, rule.IsRecord) :
    (OpenMetricsRuleSpec.deserialize spec).isSome ↔
      ∀ rule ∈ rulesIn spec, ∀ name ∈ ["annotations", "labels"],
        ∀ v ∈ field name rule.entries, v.Texts := by
  have groupsAccepted : ∀ group ∈ groupsIn spec, groupSchema.accepts group := by
    obtain ⟨fields, rfl, -⟩ := record
    exact Schema.accepts_items accepted (by simp)
  have rulesAccepted : ∀ rule ∈ rulesIn spec, ruleSchema.accepts rule := by
    intro rule member
    obtain ⟨group, listed, member⟩ := List.mem_flatMap.mp member
    have acceptedGroup := groupsAccepted group listed
    obtain ⟨fields, rfl, -⟩ := groups group listed
    exact Schema.accepts_items acceptedGroup (by simp) rule member
  rw [OpenMetricsRuleSpec.reads_iff record accepted,
    forall₂_congr fun group member => GroupSpec.reads_iff (groups group member)
      (groupsAccepted group member), ← List.forall_mem_flatMap]
  exact forall₂_congr fun rule member =>
    RuleSpec.reads_iff (rules rule member) (rulesAccepted rule member)

def numberLabel : Data :=
  .object
    [("tenants", .array [.string "a"]),
      ("groups", .array [.object
        [("name", .string "g"),
          ("rules", .array [.object
            [("expr", .string "up"), ("labels", .object [("severity", .number "1")])]])]])]

theorem accepted_reads_iff_number_label :
    specSchema.accepts numberLabel ∧ OpenMetricsRuleSpec.deserialize numberLabel = none := by
  have accepted : specSchema.accepts numberLabel := by decide
  have groups : ∀ group ∈ groupsIn numberLabel, group.IsRecord := by
    intro group member
    obtain rfl := List.mem_singleton.mp member
    exact ⟨_, rfl, by decide⟩
  have rules : ∀ rule ∈ rulesIn numberLabel, rule.IsRecord := by
    intro rule member
    obtain rfl := List.mem_singleton.mp member
    exact ⟨_, rfl, by decide⟩
  have reads := accepted_reads_iff accepted ⟨_, rfl, by decide⟩ groups rules
  refine ⟨accepted, Option.not_isSome_iff_eq_none.mp fun some => ?_⟩
  have text := reads.mp some _ (List.mem_singleton_self _) "labels" (by simp) _
    (List.mem_singleton_self _) _ (List.mem_singleton_self _)
  exact absurd text (by decide)

end OpenMetrics.KubeLib
