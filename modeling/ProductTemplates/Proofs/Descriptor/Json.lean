import ProductTemplates.Proofs.Descriptor.RoundTrip
import ProductTemplates.Proofs.Json.Nesting
import ProductTemplates.Proofs.Json.Number

/-! Descriptors as JSON. Every descriptor whose opaque values are plain has a JSON form, and is read
back from the text of it as it was: what was absent, empty, or only looks like something else stays
so. -/
namespace ProductTemplates

open Document RecordField

namespace Value

/-- Values without tags and floats, in which texts name the entries of mappings, none of them twice. -/
inductive IsTidy : Value → Prop where
  | null : IsTidy .null
  | bool (b : Bool) : IsTidy (.bool b)
  | integer {n : Int} : -2 ^ 63 ≤ n → n < 2 ^ 64 → IsTidy (.number (.integer n))
  | string (s : String) : IsTidy (.string s)
  | sequence {xs : List Value} : (∀ x ∈ xs, IsTidy x) → IsTidy (.sequence xs)
  | record {fields : List (String × Value)} : (fields.map (·.1)).Nodup →
      (∀ f ∈ fields, IsTidy f.2) → IsTidy (record fields)

variable {v : Value}

theorem IsTidy.isPlain (tidy : v.IsTidy) : v.IsPlain := by
  induction tidy with
  | null => exact .null
  | bool b => exact .bool b
  | integer low high => exact .integer low high
  | string s => exact .string s
  | sequence _ ih => exact .sequence ih
  | record _ _ ih => exact .record ih

theorem IsTidy.isSimple (tidy : v.IsTidy) : v.IsSimple := by
  induction tidy with
  | null => exact .null
  | bool b => exact .bool b
  | integer low high => exact .number (Json.numberAtom?_integer low high)
  | string s => exact .string s
  | sequence _ ih => exact .sequence ih
  | record distinct _ ih => exact .record distinct ih

theorem exists_toJsonItems {xs : List Value} (each : ∀ x ∈ xs, ∃ j, x.toJson = .ok j) :
    ∃ js, toJsonItems xs = .ok js := by
  induction xs with
  | nil => exact ⟨[], rfl⟩
  | cons x rest ih =>
    rw [List.forall_mem_cons] at each
    obtain ⟨j, here⟩ := each.1
    obtain ⟨js, there⟩ := ih each.2
    exact ⟨j :: js, bind_eq_ok_iff.2 ⟨j, here, bind_eq_ok_iff.2 ⟨js, there, rfl⟩⟩⟩

theorem exists_toJsonMembers {fields : List (String × Value)}
    (each : ∀ f ∈ fields, ∃ j, f.2.toJson = .ok j) :
    ∃ ms, toJsonMembers (fields.map fun f => (string f.1, f.2)) = .ok ms := by
  induction fields with
  | nil => exact ⟨[], rfl⟩
  | cons f rest ih =>
    rw [List.forall_mem_cons] at each
    obtain ⟨j, here⟩ := each.1
    obtain ⟨ms, there⟩ := ih each.2
    exact ⟨(f.1, j) :: ms, bind_eq_ok_iff.2 ⟨f.1, rfl,
      bind_eq_ok_iff.2 ⟨j, here, bind_eq_ok_iff.2 ⟨ms, there, rfl⟩⟩⟩⟩

/-- Plain values have a JSON form. -/
theorem IsPlain.exists_toJson (plain : v.IsPlain) : ∃ j, v.toJson = .ok j := by
  induction plain with
  | null | bool | integer | string => exact ⟨_, rfl⟩
  | sequence _ ih =>
    obtain ⟨js, items⟩ := exists_toJsonItems ih
    exact ⟨.array js, bind_eq_ok_iff.2 ⟨js, items, rfl⟩⟩
  | record _ ih =>
    obtain ⟨ms, members⟩ := exists_toJsonMembers ih
    exact ⟨.object ms, bind_eq_ok_iff.2 ⟨ms, members, rfl⟩⟩

def PlainFields (fields : List (String × Value)) : Prop := ∀ f ∈ fields, f.2.IsPlain

section Fields

variable {name text : String} {fields more : List (String × Value)} {α : Type} {write : α → Value}
  {xs : List α}

@[simp] theorem isPlain_string : (string text).IsPlain := .string text

@[simp] theorem plainFields_nil : PlainFields [] := by simp [PlainFields]

@[simp] theorem plainFields_cons :
    PlainFields ((name, v) :: fields) ↔ v.IsPlain ∧ PlainFields fields := List.forall_mem_cons

@[simp] theorem plainFields_append :
    PlainFields (fields ++ more) ↔ PlainFields fields ∧ PlainFields more := List.forall_mem_append

@[simp] theorem plainFields_textField {x : Option String} : PlainFields (textField name x) := by
  cases x <;> simp [textField]

theorem isPlain_sequence_map (each : ∀ x ∈ xs, (write x).IsPlain) :
    (sequence (xs.map write)).IsPlain := by
  refine .sequence ?_
  rw [List.forall_mem_map]
  exact each

theorem plainFields_listField (each : ∀ x ∈ xs, (write x).IsPlain) :
    PlainFields (listField name write xs) := by
  unfold listField
  split
  · simp
  · simpa using isPlain_sequence_map each

theorem isPlain_record (plain : PlainFields fields) : (record fields).IsPlain := .record plain

end Fields

end Value

open Value

@[simp] theorem TemplateVariable.toValue_isPlain (v : TemplateVariable) : v.toValue.IsPlain := by
  have suggested : PlainFields (listField "suggestedValues" .string v.suggestedValues) :=
    plainFields_listField fun _ _ => isPlain_string
  exact isPlain_record (by simp [suggested])

@[simp] theorem FixedVariable.toValue_isPlain (v : FixedVariable) : v.toValue.IsPlain :=
  isPlain_record (by simp)

@[simp] theorem StartParameter.toValue_isPlain (p : StartParameter) : p.toValue.IsPlain :=
  isPlain_record (by simp)

namespace Application

variable {a : Application}

theorem writtenFields_plain (plain : a.Carries IsPlain) : PlainFields a.writtenFields := by
  have control : PlainFields
      (if a.processControl.isEmpty then [] else [("processControl", ofDictionary a.processControl)]) := by
    split
    · simp
    · simpa [ofDictionary] using isPlain_record plain
  have parameters : PlainFields (listField "startParameters" StartParameter.toValue a.startParameters) :=
    plainFields_listField fun p _ => p.toValue_isPlain
  have fixed : PlainFields (listField "fixedVariables" FixedVariable.toValue a.fixedVariables) :=
    plainFields_listField fun v _ => v.toValue_isPlain
  rw [writtenFields]
  simp [control, parameters, fixed]

theorem toValue_isPlain (plain : a.Carries IsPlain) : a.toValue.IsPlain :=
  isPlain_record (writtenFields_plain plain)

end Application

theorem ApplicationTemplate.toValue_isPlain {t : ApplicationTemplate} (plain : t.app.Carries IsPlain) :
    t.toValue.IsPlain := by
  have listed : PlainFields
      (listField "templateVariables" TemplateVariable.toValue t.templateVariables) :=
    plainFields_listField fun v _ => v.toValue_isPlain
  exact isPlain_record (by simp [listed, Application.writtenFields_plain plain])

theorem Group.toValue_isPlain {g : Group} (plain : g.Carries IsPlain) : g.toValue.IsPlain := by
  have applications : (sequence (g.applications.map (·.toValue))).IsPlain :=
    isPlain_sequence_map fun a member => a.toValue_isPlain (plain a member)
  exact isPlain_record (by simp [applications])

@[simp] theorem InstanceVariable.toValue_isPlain (v : InstanceVariable) : v.toValue.IsPlain :=
  isPlain_record (by simp)

@[simp] theorem VariableDefault.toValue_isPlain (d : VariableDefault) : d.toValue.IsPlain :=
  isPlain_record (by simp)

theorem VariableTemplate.toValue_isPlain (t : VariableTemplate) : t.toValue.IsPlain := by
  have listed : (sequence (t.instanceVariables.map (·.toValue))).IsPlain :=
    isPlain_sequence_map fun v _ => v.toValue_isPlain
  exact isPlain_record (by simp [listed])

theorem InstanceTemplate.toValue_isPlain {t : InstanceTemplate} (plain : t.Carries IsPlain) :
    t.toValue.IsPlain := by
  have asked : PlainFields
      (listField "templateVariables" TemplateVariable.toValue t.templateVariables) :=
    plainFields_listField fun v _ => v.toValue_isPlain
  have listed : PlainFields
      (listField "instanceVariables" InstanceVariable.toValue t.instanceVariables) :=
    plainFields_listField fun v _ => v.toValue_isPlain
  have defaults : PlainFields
      (listField "instanceVariableDefaults" VariableDefault.toValue t.variableDefaults) :=
    plainFields_listField fun d _ => d.toValue_isPlain
  have groups : (sequence (t.groups.map (·.toValue))).IsPlain :=
    isPlain_sequence_map fun g member => g.toValue_isPlain (plain g member)
  exact isPlain_record (by simp [asked, listed, defaults, groups])

theorem ParameterDefinition.toValue_isPlain {p : ParameterDefinition} (plain : p.Carries IsPlain) :
    p.toValue.IsPlain := by
  have attributes : PlainFields p.attributes.entries := plain
  exact isPlain_record (by simp [attributes])

theorem ParameterTemplate.toValue_isPlain {t : ParameterTemplate} (plain : t.Carries IsPlain) :
    t.toValue.IsPlain := by
  have parameters : (sequence (t.parameters.map (·.toValue))).IsPlain :=
    isPlain_sequence_map fun p member => p.toValue_isPlain (plain p member)
  exact isPlain_record (by simp [parameters])

theorem Bundle.toValue_isPlain {b : Bundle} (plain : b.Carries IsPlain) : b.toValue.IsPlain := by
  have instances : (sequence (b.instanceTemplates.map (·.toValue))).IsPlain :=
    isPlain_sequence_map fun t member => t.toValue_isPlain (plain.instances t member)
  have applications : (sequence (b.applicationTemplates.map (·.toValue))).IsPlain :=
    isPlain_sequence_map fun t member => t.toValue_isPlain (plain.applications t member)
  have parameters : (sequence (b.parameterTemplates.map (·.toValue))).IsPlain :=
    isPlain_sequence_map fun t member => t.toValue_isPlain (plain.parameters t member)
  exact isPlain_record (by simp [instances, applications, parameters])

/-- A descriptor of some kind: of a whole file, or of a part of one. -/
inductive Descriptor where
  | bundle (b : Bundle)
  | instanceTemplate (t : InstanceTemplate)
  | group (g : Group)
  | instanceVariable (v : InstanceVariable)
  | variableDefault (d : VariableDefault)
  | variableTemplate (t : VariableTemplate)
  | applicationTemplate (t : ApplicationTemplate)
  | application (a : Application)
  | templateVariable (v : TemplateVariable)
  | fixedVariable (v : FixedVariable)
  | startParameter (p : StartParameter)
  | parameterTemplate (t : ParameterTemplate)
  | parameterDefinition (p : ParameterDefinition)

namespace Descriptor

def toValue : Descriptor → Value
  | bundle b => b.toValue
  | instanceTemplate t => t.toValue
  | group g => g.toValue
  | instanceVariable v => v.toValue
  | variableDefault d => d.toValue
  | variableTemplate t => t.toValue
  | applicationTemplate t => t.toValue
  | application a => a.toValue
  | templateVariable v => v.toValue
  | fixedVariable v => v.toValue
  | startParameter p => p.toValue
  | parameterTemplate t => t.toValue
  | parameterDefinition p => p.toValue

def readAlike : Descriptor → Reader Descriptor
  | bundle _ => fun n => (Bundle.read n).map bundle
  | instanceTemplate _ => fun n => (InstanceTemplate.read n).map instanceTemplate
  | group _ => fun n => (Group.read n).map group
  | instanceVariable _ => fun n => (InstanceVariable.read n).map instanceVariable
  | variableDefault _ => fun n => (VariableDefault.read n).map variableDefault
  | variableTemplate _ => fun n => (VariableTemplate.read n).map variableTemplate
  | applicationTemplate _ => fun n => (ApplicationTemplate.read n).map applicationTemplate
  | application _ => fun n => (Application.read n).map application
  | templateVariable _ => fun n => (TemplateVariable.read n).map templateVariable
  | fixedVariable _ => fun n => (FixedVariable.read n).map fixedVariable
  | startParameter _ => fun n => (StartParameter.read n).map startParameter
  | parameterTemplate _ => fun n => (ParameterTemplate.read n).map parameterTemplate
  | parameterDefinition _ => fun n => (ParameterDefinition.read n).map parameterDefinition

/-- Whether something holds of all opaque values that a descriptor carries along. -/
def Carries (P : Value → Prop) : Descriptor → Prop
  | bundle b => b.Carries P
  | instanceTemplate t => t.Carries P
  | group g => g.Carries P
  | applicationTemplate t => t.app.Carries P
  | application a => a.Carries P
  | parameterTemplate t => t.Carries P
  | parameterDefinition p => p.Carries P
  | _ => True

/-- Whether no attribute in it has the name of a field. -/
def IsParted : Descriptor → Prop
  | bundle b => ∀ t ∈ b.parameterTemplates, t.IsParted
  | parameterTemplate t => t.IsParted
  | parameterDefinition p => p.IsParted
  | _ => True

variable {P Q : Value → Prop} {x : Descriptor}

theorem Carries.imp (carries : x.Carries P) (weaker : ∀ v, P v → Q v) : x.Carries Q := by
  cases x with
  | bundle b => exact carries.imp weaker
  | instanceTemplate t =>
    exact fun g inside a held e entry => weaker _ (carries g inside a held e entry)
  | group g => exact fun a held e entry => weaker _ (carries a held e entry)
  | parameterTemplate t => exact fun p inside e entry => weaker _ (carries p inside e entry)
  | applicationTemplate | application | parameterDefinition =>
    exact fun e entry => weaker _ (carries e entry)
  | _ => trivial

theorem toValue_isPlain (plain : x.Carries IsPlain) : x.toValue.IsPlain := by
  cases x with
  | bundle b => exact b.toValue_isPlain plain
  | instanceTemplate t => exact t.toValue_isPlain plain
  | group g => exact g.toValue_isPlain plain
  | instanceVariable v => exact v.toValue_isPlain
  | variableDefault d => exact d.toValue_isPlain
  | variableTemplate t => exact t.toValue_isPlain
  | applicationTemplate t => exact t.toValue_isPlain plain
  | application a => exact a.toValue_isPlain plain
  | templateVariable v => exact v.toValue_isPlain
  | fixedVariable v => exact v.toValue_isPlain
  | startParameter p => exact p.toValue_isPlain
  | parameterTemplate t => exact t.toValue_isPlain plain
  | parameterDefinition p => exact p.toValue_isPlain plain

/-- Every descriptor is read back from its document. -/
theorem readAlike_node (simple : x.Carries IsSimple) (parted : x.IsParted) :
    x.readAlike x.toValue.node = .ok x := by
  have same {α : Type} {made : Except ReadError α} {y : α} (kind : α → Descriptor)
      (read : made = .ok y) : made.map kind = .ok (kind y) := map_eq_ok_iff.2 ⟨y, read, rfl⟩
  cases x with
  | bundle b => exact same _ ((Bundle.read_eq_ok_iff parted).2 simple)
  | instanceTemplate t => exact same _ (InstanceTemplate.read_eq_ok_iff.2 simple)
  | group g => exact same _ (Group.read_eq_ok_iff.2 simple)
  | instanceVariable v => exact same _ v.denotes.read
  | variableDefault d => exact same _ d.denotes.read
  | variableTemplate t => exact same _ t.denotes.read
  | applicationTemplate t => exact same _ (ApplicationTemplate.read_eq_ok_iff.2 simple)
  | application a => exact same _ (Application.read_eq_ok_iff.2 simple)
  | templateVariable v => exact same _ v.denotes.read
  | fixedVariable v => exact same _ v.denotes.read
  | startParameter p => exact same _ p.denotes.read
  | parameterTemplate t => exact same _ ((ParameterTemplate.read_eq_ok_iff parted).2 simple)
  | parameterDefinition p => exact same _ ((ParameterDefinition.read_eq_ok_iff parted).2 simple)

/-- A descriptor whose opaque values are tidy has a JSON form, and the text of this form is read back
as the descriptor if it is not nested too deep. -/
theorem exists_readText_toJson (tidy : x.Carries IsTidy) (parted : x.IsParted) :
    ∃ j, x.toValue.toJson = .ok j ∧
      (j.nesting ≤ Json.maxNesting → (Json.readText j.compactText).read x.readAlike = .ok x) := by
  obtain ⟨j, json⟩ := (toValue_isPlain (tidy.imp fun _ => IsTidy.isPlain)).exists_toJson
  refine ⟨j, json, fun shallow => ?_⟩
  rw [Json.readText_of_nesting shallow, node_of_toJson json, Source.read,
    readAlike_node (tidy.imp fun _ => IsTidy.isSimple) parted]
  rfl

/-- A parameter template with texts that look like other values, and with the smallest, the largest
and empty ones. -/
def limits : ParameterTemplate where
  id := ""
  name := some "null"
  parameters := [{
    id := "1"
    defaultValue := some "true"
    attributes := .ofList [
      ("range", .sequence [.number (.integer (-2 ^ 63)), .number (.integer (2 ^ 64 - 1)), .null]),
      ("labels", Value.record [("", .string "1"), ("null", .sequence [])])] }]

theorem readText_limits : ∃ j, limits.toValue.toJson = .ok j ∧
    (Json.readText j.compactText).read (parameterTemplate limits).readAlike =
      .ok (parameterTemplate limits) := by
  have range : IsTidy (.sequence [.number (.integer (-2 ^ 63)), .number (.integer (2 ^ 64 - 1)), .null]) := by
    refine .sequence ?_
    simp only [List.forall_mem_cons, List.not_mem_nil, false_implies, implies_true, and_true]
    exact ⟨.integer (by decide) (by decide), .integer (by decide) (by decide), .null⟩
  have labels : IsTidy (Value.record [("", .string "1"), ("null", .sequence [])]) := by
    refine .record (by decide) ?_
    simp only [List.forall_mem_cons, List.not_mem_nil, false_implies, implies_true, and_true]
    exact ⟨.string "1", .sequence (by simp)⟩
  have tidy : (parameterTemplate limits).Carries IsTidy := by
    refine List.forall_mem_singleton.2 (Dictionary.forall_mem_ofList ?_)
    exact List.forall_mem_cons.2 ⟨range, List.forall_mem_singleton.2 labels⟩
  have parted : (parameterTemplate limits).IsParted := by
    refine List.forall_mem_singleton.2 (Dictionary.forall_mem_ofList ?_)
    decide
  have depth : limits.toValue.toJson.toOption.map Json.nesting = some 5 := by decide +kernel
  obtain ⟨j, json, back⟩ := exists_readText_toJson tidy parted
  refine ⟨j, json, back ?_⟩
  rw [show limits.toValue.toJson = .ok j from json] at depth
  obtain shallow : j.nesting = 5 := Option.some.inj depth
  rw [shallow]
  decide

end Descriptor

end ProductTemplates
