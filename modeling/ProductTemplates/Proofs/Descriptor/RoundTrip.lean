import ProductTemplates.Proofs.Descriptor.Carrying
import ProductTemplates.Proofs.Dictionary
import ProductTemplates.Proofs.Document.Record

/-! Descriptors and what they are written as: what carries opaque values along is read back as it was
iff all of these are simple. -/
namespace ProductTemplates

open Document RecordField Value

theorem denotes_string (s : String) : Denotes Node.string (.string s) s := ⟨rfl, rfl⟩

theorem TemplateVariable.denotes (v : TemplateVariable) :
    Denotes TemplateVariable.read v.toValue v := by
  have id : Writes fields ["id"] [("id", .string v.id)] { id := "" } { id := v.id } :=
    writes_one rfl rfl rfl (denotes_string v.id) rfl
  have name : Writes fields ["name"] (textField "name" v.name) { id := v.id }
      { id := v.id, name := v.name } := writes_text rfl rfl rfl (fun _ => rfl) rfl rfl
  have description : Writes fields ["description"] (textField "description" v.description)
      { id := v.id, name := v.name } { id := v.id, name := v.name, description := v.description } :=
    writes_text rfl rfl rfl (fun _ => rfl) rfl rfl
  have defaultValue : Writes fields ["defaultValue"] (textField "defaultValue" v.defaultValue)
      { id := v.id, name := v.name, description := v.description }
      { v with suggestedValues := [] } :=
    writes_text rfl rfl rfl (fun _ => rfl) rfl rfl
  have suggestedValues : Writes fields ["suggestedValues"]
      (listField "suggestedValues" .string v.suggestedValues) { v with suggestedValues := [] } v :=
    writes_list rfl rfl rfl (fun s _ => denotes_string s) rfl rfl
  have writes := (((id.append name).append description).append defaultValue).append suggestedValues
  exact writes.denotes (by decide) (by simp [fields, RecordField.of, needed, orNamed])

theorem FixedVariable.denotes (v : FixedVariable) : Denotes FixedVariable.read v.toValue v := by
  have id : Writes fields ["id"] [("id", .string v.id)] ⟨"", ""⟩ ⟨v.id, ""⟩ :=
    writes_one rfl rfl rfl (denotes_string v.id) rfl
  have value : Writes fields ["value"] [("value", .string v.value)] ⟨v.id, ""⟩ v :=
    writes_one rfl rfl rfl ⟨rfl, rfl⟩ rfl
  exact (id.append value).denotes (by decide) (by simp [fields, RecordField.of, needed])

theorem StartParameter.denotes (p : StartParameter) : Denotes StartParameter.read p.toValue p := by
  have id : Writes fields ["id"] [("id", .string p.id)] { id := "" } { id := p.id } :=
    writes_one rfl rfl rfl (denotes_string p.id) rfl
  have value : Writes fields ["value"] (textField "value" p.value) { id := p.id } p :=
    writes_text rfl rfl rfl (fun _ => rfl) rfl rfl
  exact (id.append value).denotes (by decide) (by simp [fields, RecordField.of, needed, orNamed])

theorem value_eq_ok_iff {v : Value} : v.node.value = .ok v ↔ v.IsSimple := by
  rw [← value?_node_iff, Node.value]
  cases v.node.value? <;> simp

/-- Entries under their keys are made a dictionary again iff their values are simple. -/
theorem ofList_mapM_iff {d : Dictionary Value} :
    (∃ pairs, d.entries.mapM (fun e => do return (e.1, ← e.2.node.value)) =
      Except.ok (ε := ReadError) pairs ∧ .ofList pairs = d) ↔ ∀ e ∈ d.entries, e.2.IsSimple := by
  have step (e p : String × Value) : (do return (e.1, ← e.2.node.value) : Except ReadError _) = .ok p ↔
      e.1 = p.1 ∧ e.2.node.value = .ok p.2 := by
    cases e.2.node.value <;> simp [bind, Except.bind, pure, Except.pure, Prod.ext_iff]
  have back : d.entries.mapM (fun e => do return (e.1, ← e.2.node.value)) =
      Except.ok (ε := ReadError) d.entries ↔ ∀ e ∈ d.entries, e.2.IsSimple := by
    simp only [mapM_self_iff, step, true_and, value_eq_ok_iff]
  rw [← back]
  constructor
  · rintro ⟨pairs, all, same⟩
    have keys : pairs.map (·.1) = d.entries.map (·.1) :=
      map_eq_of_mapM (fun e p read => ((step e p).1 read).1.symm) all
    rw [(Dictionary.ofList_eq_iff keys).1 same] at all
    exact all
  · exact fun all => ⟨d.entries, all, (Dictionary.ofList_eq_iff rfl).2 rfl⟩

theorem dictionary_eq_ok_iff {d : Dictionary Value} :
    Node.dictionary (ofDictionary d).node = .ok d ↔ ∀ e ∈ d.entries, e.2.IsSimple := by
  rw [← ofList_mapM_iff, ofDictionary, node_record]
  constructor
  · intro h
    obtain ⟨_, same, h⟩ := bind_eq_ok_iff.1 h
    obtain rfl := Except.ok.inj same
    obtain ⟨pairs, all, same⟩ := bind_eq_ok_iff.1 h
    rw [List.mapM_map] at all
    exact ⟨pairs, all, Except.ok.inj same⟩
  · rintro ⟨pairs, all, same⟩
    refine bind_eq_ok_iff.2 ⟨_, rfl, bind_eq_ok_iff.2 ⟨pairs, ?_, congrArg Except.ok same⟩⟩
    rw [List.mapM_map]
    exact all

theorem denotes_dictionary {d : Dictionary Value} (simple : ∀ e ∈ d.entries, e.2.IsSimple) :
    Denotes Node.dictionary (ofDictionary d) d :=
  ⟨settles_record fun e member => (simple e member).settles, dictionary_eq_ok_iff.2 simple⟩

namespace Application

variable {a : Application}

def names : List String :=
  ["application", "template", "name", "description", "preferredProcessControlGroup",
    "processControl", "startParameters", "fixedVariables"]

/-- The written fields before those of the process, and those after them. -/
def textFields (a : Application) : List (String × Value) :=
  textField "application" a.application ++ textField "template" a.template ++
    textField "name" a.name ++ textField "description" a.description ++
    textField "preferredProcessControlGroup" a.preferredControlGroup

def listFields (a : Application) : List (String × Value) :=
  listField "startParameters" StartParameter.toValue a.startParameters ++
    listField "fixedVariables" FixedVariable.toValue a.fixedVariables

theorem writtenFields_eq (a : Application) : a.writtenFields = a.textFields ++
    ((if a.processControl.isEmpty then [] else [("processControl", ofDictionary a.processControl)]) ++
      a.listFields) := by
  simp only [writtenFields, textFields, listFields, List.append_assoc]

theorem writes_texts (a : Application) : Writes fields
    ["application", "template", "name", "description", "preferredProcessControlGroup"] a.textFields {}
    { a with processControl := .empty, startParameters := [], fixedVariables := [] } := by
  have application : Writes fields ["application"] (textField "application" a.application) {}
      { application := a.application } := writes_text rfl rfl rfl (fun _ => rfl) rfl rfl
  have template : Writes fields ["template"] (textField "template" a.template)
      { application := a.application } { application := a.application, template := a.template } :=
    writes_text rfl rfl rfl (fun _ => rfl) rfl rfl
  have name : Writes fields ["name"] (textField "name" a.name)
      { application := a.application, template := a.template }
      { application := a.application, template := a.template, name := a.name } :=
    writes_text rfl rfl rfl (fun _ => rfl) rfl rfl
  have description : Writes fields ["description"] (textField "description" a.description)
      { application := a.application, template := a.template, name := a.name }
      { application := a.application, template := a.template, name := a.name
        description := a.description } := writes_text rfl rfl rfl (fun _ => rfl) rfl rfl
  have group : Writes fields ["preferredProcessControlGroup"]
      (textField "preferredProcessControlGroup" a.preferredControlGroup)
      { application := a.application, template := a.template, name := a.name
        description := a.description }
      { a with processControl := .empty, startParameters := [], fixedVariables := [] } :=
    writes_text rfl rfl rfl (fun _ => rfl) rfl rfl
  exact (((application.append template).append name).append description).append group

theorem writes_lists (a : Application) : Writes fields ["startParameters", "fixedVariables"]
    a.listFields { a with startParameters := [], fixedVariables := [] } a := by
  have parameters : Writes fields ["startParameters"]
      (listField "startParameters" StartParameter.toValue a.startParameters)
      { a with startParameters := [], fixedVariables := [] } { a with fixedVariables := [] } :=
    writes_list rfl rfl rfl (fun p _ => p.denotes) rfl rfl
  have fixed : Writes fields ["fixedVariables"]
      (listField "fixedVariables" FixedVariable.toValue a.fixedVariables)
      { a with fixedVariables := [] } a :=
    writes_list rfl rfl rfl (fun v _ => v.denotes) rfl rfl
  exact parameters.append fixed

theorem writes (simple : a.Carries IsSimple) : Writes fields names a.writtenFields {} a := by
  have control : Writes fields ["processControl"]
      (if a.processControl.isEmpty then [] else [("processControl", ofDictionary a.processControl)])
      { a with processControl := .empty, startParameters := [], fixedVariables := [] }
      { a with startParameters := [], fixedVariables := [] } := by
    split
    · next empty =>
      have unset : a.processControl = .empty :=
        Dictionary.eq_of_entries_eq (List.isEmpty_iff.1 empty)
      exact writes_none (by rw [unset])
    · exact writes_one rfl rfl rfl (denotes_dictionary simple) rfl
  rw [writtenFields_eq]
  exact (writes_texts a).append (control.append (writes_lists a))

theorem sublist_names (a : Application) : (a.writtenFields.map (·.1)).Sublist names := by
  have control : ((if a.processControl.isEmpty then []
      else [("processControl", ofDictionary a.processControl)]).map (·.1)).Sublist
        ["processControl"] := by
    split <;> simp
  rw [writtenFields_eq, List.map_append, List.map_append]
  exact (writes_texts a).sublist.append (control.append (writes_lists a).sublist)

theorem puts_iff : Puts fields a.writtenFields {} a ↔ a.Carries IsSimple := by
  refine ⟨fun puts => ?_, fun simple => (writes simple).puts⟩
  rw [writtenFields_eq] at puts
  split at puts
  · next empty =>
    rw [Carries, List.isEmpty_iff.1 empty]
    simp
  · have rest (d : Dictionary Value) : Puts fields a.listFields
        { a with processControl := d, startParameters := [], fixedVariables := [] }
        { a with processControl := d } := (writes_lists { a with processControl := d }).puts
    refine dictionary_eq_ok_iff.1 (((writes_texts a).puts_iff "processControl"
      (fun d => { a with processControl := d }) rfl rfl rfl rest rfl ?_).1 puts)
    exact fun _ same => congrArg processControl same

theorem known_names : Known fields names := by decide

theorem read_eq_ok_iff : read a.toValue.node = .ok a ↔ a.Carries IsSimple := by
  rw [← puts_iff]
  exact record_eq_ok_iff known_names (sublist_names a) (by decide) (by simp [fields, RecordField.of])

end Application

theorem ApplicationTemplate.read_eq_ok_iff {t : ApplicationTemplate} :
    read t.toValue.node = .ok t ↔ t.app.Carries IsSimple := by
  have id : Writes fields ["id"] [("id", .string t.id)] { id := "" } { id := t.id } :=
    writes_one rfl rfl rfl (denotes_string t.id) rfl
  have listed : Writes fields ["templateVariables"]
      (listField "templateVariables" TemplateVariable.toValue t.templateVariables) { id := t.id }
      { t with app := {} } := writes_list rfl rfl rfl (fun v _ => v.denotes) rfl rfl
  have sublist := t.app.sublist_names
  have unknown : ∀ e ∈ t.app.writtenFields, find? fields e.1 = none := by
    intro e member
    have foreign : ∀ name ∈ Application.names, find? fields name = none := by
      simp [Application.names, find?, fields, RecordField.of, needed, answersTo]
    exact foreign _ (sublist.subset (List.mem_map_of_mem member))
  have own := id.partly_iff unknown listed (by decide) (by simp [fields, RecordField.of, needed])
  have app (q : Progress Application) := @readSettled_eq_ok_iff _ Application.fields _ {} [] q
    (fun name member => Application.known_names name (sublist.subset member))
    (sublist.nodup (by decide)) (by simp)
  constructor
  · intro h
    obtain ⟨_, here, h⟩ := bind_eq_ok_iff.1 h
    obtain ⟨-, rfl⟩ := (own _).1 here
    obtain ⟨q, there, same⟩ := bind_eq_ok_iff.1 h
    obtain ⟨b, puts, rfl⟩ := (app q).1 there
    obtain rfl : b = t.app := congrArg ApplicationTemplate.app (Except.ok.inj same)
    exact Application.puts_iff.1 puts
  · intro simple
    have writes := Application.writes simple
    refine bind_eq_ok_iff.2 ⟨_, (own _).2 ⟨writes.settles, rfl⟩, ?_⟩
    exact bind_eq_ok_iff.2 ⟨_, (app _).2 ⟨t.app, writes.puts, rfl⟩, rfl⟩

theorem NodeKind.denotes (k : NodeKind) : Denotes NodeKind.read (.string k.text) k := by
  refine ⟨rfl, ?_⟩
  cases k <;> rfl

theorem Group.read_eq_ok_iff {g : Group} : read g.toValue.node = .ok g ↔ g.Carries IsSimple := by
  have name : Writes fields ["name"] [("name", .string g.name)] { name := "" } { name := g.name } :=
    writes_one rfl rfl rfl (denotes_string g.name) rfl
  have description : Writes fields ["description"] (textField "description" g.description)
      { name := g.name } { name := g.name, description := g.description } :=
    writes_text rfl rfl rfl (fun _ => rfl) rfl rfl
  have kind : Writes fields ["type"] [("type", .string g.kind.text)]
      { name := g.name, description := g.description } { g with applications := [] } :=
    writes_one rfl rfl rfl g.kind.denotes rfl
  have writes := (name.append description).append kind
  have entries : g.toValue = Value.record (([("name", .string g.name)] ++
      textField "description" g.description ++ [("type", .string g.kind.text)]) ++
        [("applications", Value.sequence (g.applications.map (·.toValue)))]) :=
    congrArg Value.record (List.append_assoc _ [_] [_]).symm
  rw [entries, Carries, read, writes.record_iff "applications" rfl rfl rfl rfl
    (fun _ same => congrArg applications same) (by decide)
    (by simp [fields, RecordField.of, needed]), list_eq_ok_iff]
  simp only [Application.read_eq_ok_iff]

theorem InstanceVariable.denotes (v : InstanceVariable) :
    Denotes InstanceVariable.read v.toValue v := by
  have id : Writes fields ["id"] (textField "id" v.id) {} { id := v.id } :=
    writes_text rfl rfl rfl (fun _ => rfl) rfl rfl
  have template : Writes fields ["template"] (textField "template" v.template) { id := v.id }
      { id := v.id, template := v.template } := writes_text rfl rfl rfl (fun _ => rfl) rfl rfl
  have value : Writes fields ["value"] (textField "value" v.value)
      { id := v.id, template := v.template } { v with description := none, type := none } :=
    writes_text rfl rfl rfl (fun _ => rfl) rfl rfl
  have description : Writes fields ["description"] (textField "description" v.description)
      { v with description := none, type := none } { v with type := none } :=
    writes_text rfl rfl rfl (fun _ => rfl) rfl rfl
  have type : Writes fields ["type"] (textField "type" v.type) { v with type := none } v :=
    writes_text rfl rfl rfl (fun _ => rfl) rfl rfl
  have writes := (((id.append template).append value).append description).append type
  exact writes.denotes (by decide) (by simp [fields, RecordField.of])

theorem VariableDefault.denotes (v : VariableDefault) :
    Denotes VariableDefault.read v.toValue v := by
  have id : Writes fields ["id"] [("id", .string v.id)] { id := "" } { id := v.id } :=
    writes_one rfl rfl rfl (denotes_string v.id) rfl
  have value : Writes fields ["value"] (textField "value" v.value) { id := v.id } v :=
    writes_text rfl rfl rfl (fun _ => rfl) rfl rfl
  exact (id.append value).denotes (by decide) (by simp [fields, RecordField.of, needed])

theorem VariableTemplate.denotes (t : VariableTemplate) :
    Denotes VariableTemplate.read t.toValue t := by
  have id : Writes fields ["id"] [("id", .string t.id)] { id := "" } { id := t.id } :=
    writes_one rfl rfl rfl (denotes_string t.id) rfl
  have listed : Writes fields ["instanceVariables"]
      [("instanceVariables", .sequence (t.instanceVariables.map (·.toValue)))] { id := t.id } t :=
    writes_one rfl rfl rfl (denotes_list fun v _ => v.denotes) rfl
  exact (id.append listed).denotes (by decide) (by simp [fields, RecordField.of, needed])

theorem InstanceTemplate.read_eq_ok_iff {t : InstanceTemplate} :
    read t.toValue.node = .ok t ↔ t.Carries IsSimple := by
  have name : Writes fields ["name"] [("name", .string t.name)] { name := "" } { name := t.name } :=
    writes_one rfl rfl rfl (denotes_string t.name) rfl
  have description : Writes fields ["description"] (textField "description" t.description)
      { name := t.name } { name := t.name, description := t.description } :=
    writes_text rfl rfl rfl (fun _ => rfl) rfl rfl
  have asked : Writes fields ["templateVariables"]
      (listField "templateVariables" TemplateVariable.toValue t.templateVariables)
      { name := t.name, description := t.description }
      { t with instanceVariables := [], variableDefaults := [], groups := [] } :=
    writes_list rfl rfl rfl (fun v _ => v.denotes) rfl rfl
  have listed : Writes fields ["instanceVariables"]
      (listField "instanceVariables" InstanceVariable.toValue t.instanceVariables)
      { t with instanceVariables := [], variableDefaults := [], groups := [] }
      { t with variableDefaults := [], groups := [] } :=
    writes_list rfl rfl rfl (fun v _ => v.denotes) rfl rfl
  have defaults : Writes fields ["instanceVariableDefaults"]
      (listField "instanceVariableDefaults" VariableDefault.toValue t.variableDefaults)
      { t with variableDefaults := [], groups := [] } { t with groups := [] } :=
    writes_list rfl rfl rfl (fun v _ => v.denotes) rfl rfl
  have writes := (((name.append description).append asked).append listed).append defaults
  rw [toValue, Carries, read, writes.record_iff "groups" rfl rfl rfl rfl
    (fun _ same => congrArg groups same) (by decide)
    (by simp [fields, RecordField.of, needed]), list_eq_ok_iff]
  simp only [Group.read_eq_ok_iff]

theorem ParameterDefinition.read_eq_ok_iff {p : ParameterDefinition} (parted : p.IsParted) :
    read p.toValue.node = .ok p ↔ p.Carries IsSimple := by
  have id : Writes fields ["id"] [("id", .string p.id)] { id := "" } { id := p.id } :=
    writes_one rfl rfl rfl (denotes_string p.id) rfl
  have name : Writes fields ["name"] (textField "name" p.name) { id := p.id }
      { id := p.id, name := p.name } := writes_text rfl rfl rfl (fun _ => rfl) rfl rfl
  have defaultValue : Writes fields ["defaultValue"] (textField "defaultValue" p.defaultValue)
      { id := p.id, name := p.name } { p with attributes := .empty } :=
    writes_text rfl rfl rfl (fun _ => rfl) rfl rfl
  have writes := (id.append name).append defaultValue
  have own := writes.partly_iff parted writes_nil (by decide)
    (by simp [fields, RecordField.of, needed])
  simp only [List.append_nil] at own
  rw [Carries, ← ofList_mapM_iff]
  constructor
  · intro h
    obtain ⟨_, here, h⟩ := bind_eq_ok_iff.1 h
    obtain ⟨-, rfl⟩ := (own _).1 here
    obtain ⟨pairs, all, same⟩ := bind_eq_ok_iff.1 h
    rw [List.mapM_map] at all
    exact ⟨pairs, all, congrArg attributes (Except.ok.inj same)⟩
  · rintro ⟨pairs, all, same⟩
    have simple := ofList_mapM_iff.1 ⟨pairs, all, same⟩
    refine bind_eq_ok_iff.2 ⟨_, (own _).2 ⟨fun e member => (simple e member).settles, rfl⟩, ?_⟩
    refine bind_eq_ok_iff.2 ⟨pairs, ?_, ?_⟩
    · rw [List.mapM_map]
      exact all
    · rw [same]
      rfl

theorem ParameterTemplate.read_eq_ok_iff {t : ParameterTemplate} (parted : t.IsParted) :
    read t.toValue.node = .ok t ↔ t.Carries IsSimple := by
  have id : Writes fields ["id"] [("id", .string t.id)] { id := "" } { id := t.id } :=
    writes_one rfl rfl rfl (denotes_string t.id) rfl
  have name : Writes fields ["name"] (textField "name" t.name) { id := t.id }
      { id := t.id, name := t.name } := writes_text rfl rfl rfl (fun _ => rfl) rfl rfl
  have description : Writes fields ["description"] (textField "description" t.description)
      { id := t.id, name := t.name } { t with parameters := [] } :=
    writes_text rfl rfl rfl (fun _ => rfl) rfl rfl
  have writes := (id.append name).append description
  rw [toValue, Carries, read, writes.record_iff "parameters" rfl rfl rfl rfl
    (fun _ same => congrArg parameters same) (by decide)
    (by simp [fields, RecordField.of, needed]), list_eq_ok_iff]
  exact forall₂_congr fun p member => ParameterDefinition.read_eq_ok_iff (parted p member)

/-- A bundle is read back from what it is written as iff all that it carries along is simple. -/
theorem Bundle.read_eq_ok_iff {b : Bundle} (parted : ∀ t ∈ b.parameterTemplates, t.IsParted) :
    read b.toValue.node = .ok b ↔ b.Carries IsSimple := by
  have names : Known fields ["instanceTemplates", "applicationTemplates", "parameterTemplates"] := by
    decide
  rw [read, toValue, record_eq_ok_iff names (List.Sublist.refl _) (by decide)
    (by simp [fields, RecordField.of, needed])]
  constructor
  · intro puts
    obtain ⟨instances, here, puts⟩ := puts.read_first rfl rfl
    obtain ⟨applications, there, puts⟩ := puts.read_first rfl rfl
    obtain ⟨parameters, last, puts⟩ := puts.read_first rfl rfl
    have same := Puts.nil.eq puts
    obtain rfl : instances = b.instanceTemplates := congrArg instanceTemplates same
    obtain rfl : applications = b.applicationTemplates := congrArg applicationTemplates same
    obtain rfl : parameters = b.parameterTemplates := congrArg parameterTemplates same
    rw [list_eq_ok_iff] at here there last
    exact ⟨fun t member => InstanceTemplate.read_eq_ok_iff.1 (here t member),
      fun t member => ApplicationTemplate.read_eq_ok_iff.1 (there t member),
      fun t member => (ParameterTemplate.read_eq_ok_iff (parted t member)).1 (last t member)⟩
  · intro simple
    have here := list_eq_ok_iff.2 fun t member =>
      InstanceTemplate.read_eq_ok_iff.2 (simple.instances t member)
    have there := list_eq_ok_iff.2 fun t member =>
      ApplicationTemplate.read_eq_ok_iff.2 (simple.applications t member)
    have last := list_eq_ok_iff.2 fun t member =>
      (ParameterTemplate.read_eq_ok_iff (parted t member)).2 (simple.parameters t member)
    exact puts_first rfl rfl rfl here (puts_first rfl rfl rfl there (puts_first rfl rfl rfl last .nil))

end ProductTemplates
