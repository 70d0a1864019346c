import ProductTemplates.Descriptor.Reading
import ProductTemplates.Proofs.Document.Typing
import ProductTemplates.Proofs.Yaml.Written

/-! An application by itself, as in a group, and with an id, as a template. A template settles its
application before it reads it, so they are the same exactly where each field reads its settled value
as it reads the value that was written. -/
namespace ProductTemplates

open Document RecordField

variable {shape : Shape} {entries before after : List (Node × Node)} {complete : Bool} {k v : Node}
  {x : String} {a : Application} {t : ApplicationTemplate}

theorem Application.read_mapping_iff : Application.read (.mapping shape entries complete) = .ok a ↔
    complete = true ∧ ∃ q, readEntries Application.fields entries ⟨[], {}⟩ = .ok q ∧ q.record = a := by
  have complain (q : Progress Application) : complain Application.fields q = .ok () :=
    complain_eq_ok (by simp [fields, RecordField.of])
  constructor
  · intro h
    obtain ⟨_, same, h⟩ := bind_eq_ok_iff.1 h
    obtain rfl := Except.ok.inj same
    obtain ⟨q, read, h⟩ := bind_eq_ok_iff.1 h
    dsimp only at h
    cases complete with
    | false => contradiction
    | true =>
      obtain ⟨_, -, last⟩ := bind_eq_ok_iff.1 h
      exact ⟨rfl, q, read, Except.ok.inj last⟩
  · rintro ⟨rfl, q, read, rfl⟩
    refine bind_eq_ok_iff.2 ⟨_, rfl, bind_eq_ok_iff.2 ⟨q, read, ?_⟩⟩
    exact bind_eq_ok_iff.2 ⟨(), complain q, rfl⟩

theorem Application.apart : Apart Application.fields := by
  have other {α β : Type} {name : String} {reader : Reader α} {set : α → Application → Application}
      {get : Application → β} (same : ∀ x r, get (set x r) = get r) :
      ∀ n r r', (RecordField.of name reader set).put n r = .ok r' → get r' = get r := by
    intro n r r' put
    obtain ⟨x, -, rfl⟩ := map_eq_ok_iff.1 put
    exact same x r
  have part {β : Type} {name : String} {reader : Reader β} {set : β → Application → Application}
      (get : Application → β) (own : ∀ x r, get (set x r) = x)
      (others : ∀ g ∈ fields, g.name ≠ name → ∀ n r r', g.put n r = .ok r' → get r' = get r) :
      ∃ (α : Type) (reader' : Reader α) (set' : α → Application → Application)
        (get' : Application → α),
        IsPart fields (RecordField.of name reader set) reader' set' get' :=
    ⟨β, reader, set, get, rfl, own, others⟩
  simp only [Apart, fields, List.forall_mem_cons, List.not_mem_nil, false_implies, implies_true,
    and_true]
  refine ⟨part (·.application) (fun _ _ => rfl) ?_, part (·.template) (fun _ _ => rfl) ?_,
    part (·.name) (fun _ _ => rfl) ?_, part (·.description) (fun _ _ => rfl) ?_,
    part (·.preferredControlGroup) (fun _ _ => rfl) ?_, part (·.processControl) (fun _ _ => rfl) ?_,
    part (·.startParameters) (fun _ _ => rfl) ?_, part (·.fixedVariables) (fun _ _ => rfl) ?_⟩
  all_goals
    simp only [fields, List.forall_mem_cons, List.not_mem_nil, false_implies, implies_true, and_true]
    refine ⟨fun differ => ?_, fun differ => ?_, fun differ => ?_, fun differ => ?_, fun differ => ?_,
      fun differ => ?_, fun differ => ?_, fun differ => ?_⟩
    all_goals first
      | exact absurd rfl differ
      | exact other fun _ _ => rfl

/-- Whether no entry has the name of one of a template's own fields. -/
def Unclaimed (entries : List (Node × Node)) : Prop :=
  ∀ e ∈ entries, e.1.string ≠ .ok "id" ∧ e.1.string ≠ .ok "templateVariables"

theorem Unclaimed.find? (unclaimed : Unclaimed entries) : ∀ e ∈ entries, ∀ key,
    e.1.string = .ok key → find? ApplicationTemplate.fields key = none := by
  intro e member key string
  obtain ⟨id, free⟩ := unclaimed e member
  have id' : key ≠ "id" := fun same => id (same ▸ string)
  have free' : key ≠ "templateVariables" := fun same => free (same ▸ string)
  simp [RecordField.find?, ApplicationTemplate.fields, answersTo, RecordField.of, needed,
    id'.symm, free'.symm]

theorem readSome_id (unclaimed : Unclaimed (before ++ after)) (id : k.string = .ok "id")
    (value : v.string = .ok x) {y : Progress ApplicationTemplate × List (String × Node)} :
    readSome ApplicationTemplate.fields (before ++ (k, v) :: after) ⟨[], { id := "" }⟩ = .ok y ↔
      ∃ others, (before ++ after).mapM namedSettled = .ok others ∧
        y = (⟨["id"], { id := x }⟩, others) := by
  obtain ⟨before', after'⟩ := List.forall_mem_append.1 unclaimed
  have known : RecordField.find? ApplicationTemplate.fields "id" =
      some ((RecordField.of "id" Node.string fun x t => { t with id := x }).needed) := rfl
  have met : readSome ApplicationTemplate.fields ((k, v) :: after) ⟨[], { id := "" }⟩ =
      readSome ApplicationTemplate.fields after ⟨["id"], { id := x }⟩ := by
    rw [readSome_known id known]
    simp [meet, RecordField.of, needed, value, Except.map, bind, Except.bind, pure, Except.pure]
  simp only [readSome_append_iff, readSome_eq_ok_iff (Unclaimed.find? before'), List.mapM_append,
    bind_eq_ok_iff]
  constructor
  · rintro ⟨q, xs, s, ys, ⟨_, here, same⟩, there, rfl⟩
    obtain ⟨rfl, rfl⟩ := Prod.mk.inj same
    rw [met, readSome_eq_ok_iff (Unclaimed.find? after')] at there
    obtain ⟨_, later, same⟩ := there
    obtain ⟨rfl, rfl⟩ := Prod.mk.inj same
    exact ⟨_, ⟨_, here, _, later, rfl⟩, rfl⟩
  · rintro ⟨others, ⟨xs, here, ys, later, same⟩, rfl⟩
    obtain rfl := Except.ok.inj same
    refine ⟨_, xs, _, ys, ⟨xs, here, rfl⟩, ?_, rfl⟩
    rw [met]
    exact (readSome_eq_ok_iff (Unclaimed.find? after')).2 ⟨ys, later, rfl⟩

theorem ApplicationTemplate.read_mapping_iff (unclaimed : Unclaimed (before ++ after))
    (id : k.string = .ok "id") (value : v.string = .ok x) :
    ApplicationTemplate.read (.mapping shape (before ++ (k, v) :: after) complete) = .ok t ↔
      complete = true ∧ ∃ others q, (before ++ after).mapM namedSettled = .ok others ∧
        readSettled Application.fields others ⟨[], {}⟩ = .ok q ∧ t = { id := x, app := q.record } := by
  have complain : complain fields ⟨["id"], { id := x }⟩ = .ok () :=
    complain_eq_ok (by simp [fields, RecordField.of, needed])
  constructor
  · intro h
    obtain ⟨⟨_, others⟩, own, h⟩ := bind_eq_ok_iff.1 h
    obtain ⟨q, read, same⟩ := bind_eq_ok_iff.1 h
    obtain ⟨_, same', own⟩ := bind_eq_ok_iff.1 own
    obtain rfl := Except.ok.inj same'
    obtain ⟨y, reads, own⟩ := bind_eq_ok_iff.1 own
    obtain ⟨others', settled, rfl⟩ := (readSome_id unclaimed id value).1 reads
    dsimp only at own
    cases complete with
    | false => contradiction
    | true =>
      obtain ⟨_, -, last⟩ := bind_eq_ok_iff.1 own
      obtain ⟨rfl, rfl⟩ := Prod.mk.inj (Except.ok.inj last)
      exact ⟨rfl, others', q, settled, read, (Except.ok.inj same).symm⟩
  · rintro ⟨rfl, others, q, settled, read, rfl⟩
    have own : RecordField.partly fields { id := "" } (.mapping shape (before ++ (k, v) :: after) true) =
        .ok ({ id := x }, others) := by
      refine bind_eq_ok_iff.2 ⟨_, rfl, bind_eq_ok_iff.2 ⟨⟨⟨["id"], { id := x }⟩, others⟩, ?_, ?_⟩⟩
      · exact (readSome_id unclaimed id value).2 ⟨others, settled, rfl⟩
      · exact bind_eq_ok_iff.2 ⟨(), complain, rfl⟩
    exact bind_eq_ok_iff.2 ⟨_, own, bind_eq_ok_iff.2 ⟨q, read, rfl⟩⟩

theorem StartParameter.readsTyped : ∀ f ∈ fields, f.ReadsTyped ["id", "uid"] := by
  simp only [fields, List.forall_mem_cons, List.not_mem_nil, false_implies, implies_true, and_true]
  constructor
  · intro key v r answers _ text
    have named : "id" = key ∨ key = "uid" := by
      simpa [answersTo, RecordField.of, needed, orNamed] using answers
    have inside : key ∈ ["id", "uid"] := by
      rcases named with rfl | rfl <;> simp
    exact readsSettled_put rfl (readsSettled_string (text inside)) r
  · intro _ v r _ settles _
    exact readsSettled_put rfl (readsSettled_scalarText settles) r

theorem FixedVariable.readsTyped : ∀ f ∈ fields, f.ReadsTyped ["id"] := by
  simp only [fields, List.forall_mem_cons, List.not_mem_nil, false_implies, implies_true, and_true]
  constructor
  · intro key v r answers _ text
    have named : "id" = key := by
      simpa [answersTo, RecordField.of, needed] using answers
    have inside : key ∈ ["id"] := List.mem_singleton.2 named.symm
    exact readsSettled_put rfl (readsSettled_string (text inside)) r
  · intro _ v r _ settles _
    exact readsSettled_put rfl (readsSettled_requiredText settles) r

namespace Application

/-- Whether an entry settles, and is what its field asks for by itself: a text, if it is there, or a
mapping from texts, or a sequence of mappings with texts as ids. -/
structure EntryIsTyped (e : Node × Node) : Prop where
  settles : ∃ m, e.2.settle? = some m
  text : ∀ name ∈ ["application", "template", "name", "description", "preferredProcessControlGroup"],
    e.1.string = .ok name → ∀ t, Node.optional Node.string e.2 = .ok (some t) → e.2.IsText
  processControl : e.1.string = .ok "processControl" → NamesTexts [] e.2
  startParameters : e.1.string = .ok "startParameters" →
    ∃ shape items complete, e.2 = .sequence shape items complete ∧
      ∀ n ∈ items, NamesTexts ["id", "uid"] n
  fixedVariables : e.1.string = .ok "fixedVariables" →
    ∃ shape items complete, e.2 = .sequence shape items complete ∧ ∀ n ∈ items, NamesTexts ["id"] n

theorem readsSettled_processControl {n : Node} (settles : ∃ m, n.settle? = some m)
    (texts : NamesTexts [] n) : ReadsSettled Node.dictionary n := by
  cases n with
  | mapping => exact readsSettled_dictionary settles fun e member => (texts e member).1
  | scalar | sequence | refused | malformed => exact texts.elim

theorem readsSettled_records {α : Type} {fields : List (RecordField α)} {start : α}
    {names : List String} {n : Node} (each : ∀ f ∈ fields, f.ReadsTyped names)
    (settles : ∃ m, n.settle? = some m)
    (items : ∃ shape items complete, n = .sequence shape items complete ∧
      ∀ n ∈ items, NamesTexts names n) :
    ReadsSettled (Node.list (RecordField.record fields start)) n := by
  obtain ⟨shape, items, complete, rfl, texts⟩ := items
  refine readsSettled_list settles fun n member => ?_
  exact readsSettled_of_namesTexts each (exists_settle?_of_mem settles member) (texts n member)

theorem EntryIsTyped.entrySettles {e : Node × Node} (typed : EntryIsTyped e) :
    EntrySettles fields e := by
  refine ⟨fun key f string found => ?_, fun _ _ _ _ => typed.settles⟩
  have text {name : String} {set : Option String → Application → Application}
      (known : name ∈ ["application", "template", "name", "description",
        "preferredProcessControlGroup"])
      (answers : (RecordField.of name (Node.optional Node.string) set).answersTo key = true) (r) :
      ReadsSettled ((RecordField.of name (Node.optional Node.string) set).put · r) e.2 := by
    obtain rfl := answersTo_of_iff.1 answers
    exact readsSettled_put rfl (readsSettled_optionalString_iff.2 (typed.text name known string)) r
  have each : ∀ f ∈ fields, f.answersTo key = true → ∀ r, ReadsSettled (f.put · r) e.2 := by
    simp only [fields, List.forall_mem_cons, List.not_mem_nil, false_implies, implies_true, and_true]
    refine ⟨text (by simp), text (by simp), text (by simp), text (by simp), text (by simp), ?_, ?_, ?_⟩
    all_goals
      intro answers r
      obtain rfl := answersTo_of_iff.1 answers
      apply readsSettled_put rfl
    · exact readsSettled_processControl typed.settles (typed.processControl string)
    · exact readsSettled_records StartParameter.readsTyped typed.settles (typed.startParameters string)
    · exact readsSettled_records FixedVariable.readsTyped typed.settles (typed.fixedVariables string)
  exact each f (mem_of_find? found) (answersTo_of_find? found)

/-- Whether one source gives an application iff another gives the template of the id `x` with it. -/
def ReadsAlike (source source' : Source) (x : String) : Prop :=
  ∀ a, source.read read = .ok a ↔ source'.read ApplicationTemplate.read = .ok { id := x, app := a }

variable {shape' : Shape} {alone : Bool} {m m' : String}

theorem read_source_iff : Source.read ⟨.mapping shape entries complete, alone⟩ read = .ok a ↔
    (complete = true ∧ alone = true) ∧
      ∃ q, readEntries fields entries ⟨[], {}⟩ = .ok q ∧ q.record = a := by
  rw [Source.read_eq_ok_iff, read_mapping_iff, and_right_comm]

theorem read_template_source_iff (unclaimed : Unclaimed (before ++ after))
    (id : k.string = .ok "id") (value : v.string = .ok x) :
    Source.read ⟨.mapping shape' (before ++ (k, v) :: after) complete, alone⟩
        ApplicationTemplate.read = .ok t ↔
      (complete = true ∧ alone = true) ∧ ∃ others q, (before ++ after).mapM namedSettled = .ok others ∧
        readSettled fields others ⟨[], {}⟩ = .ok q ∧ t = { id := x, app := q.record } := by
  rw [Source.read_eq_ok_iff, ApplicationTemplate.read_mapping_iff unclaimed id value, and_right_comm]

theorem readsAlike_of_entrySettles (unclaimed : Unclaimed (before ++ after))
    (id : k.string = .ok "id") (value : v.string = .ok x)
    (textual : ∀ e ∈ before ++ after, Textual e.1)
    (each : ∀ e ∈ before ++ after, EntrySettles fields e) :
    ReadsAlike ⟨.mapping shape (before ++ after) complete, alone⟩
      ⟨.mapping shape' (before ++ (k, v) :: after) complete, alone⟩ x := by
  intro a
  rw [read_source_iff, read_template_source_iff unclaimed id value]
  simp only [readEntries_eq_ok_iff textual each, ApplicationTemplate.mk.injEq, true_and, and_true]
  constructor
  · rintro ⟨whole, q, ⟨others, settled, read⟩, rfl⟩
    exact ⟨whole, others, q, settled, read, rfl⟩
  · rintro ⟨whole, others, q, settled, read, rfl⟩
    exact ⟨whole, q, ⟨others, settled, read⟩, rfl⟩

theorem textual_of_readText (text : Yaml.readText m = ⟨.mapping shape entries complete, alone⟩) :
    ∀ e ∈ entries, Textual e.1 := by
  have written := Yaml.isWritten_readText m
  rw [text] at written
  cases written with
  | mapping keys values =>
    rintro e member i same
    have key := keys e member
    rw [same] at key
    cases key

/-- A text that is an application, and the same text with an id, are read alike iff every field reads
its value as it reads the settled value, or else neither is read; and so they are where the text says
its types by itself. -/
theorem readsAlike_iff (text : Yaml.readText m = ⟨.mapping shape (before ++ after) complete, alone⟩)
    (text' : Yaml.readText m' = ⟨.mapping shape' (before ++ (k, v) :: after) complete, alone⟩)
    (id : k.string = .ok "id") (value : v.string = .ok x) (unclaimed : Unclaimed (before ++ after)) :
    (ReadsAlike (Yaml.readText m) (Yaml.readText m') x ↔
      (∀ e ∈ before ++ after, EntrySettles fields e) ∨
        (∀ a, (Yaml.readText m).read read ≠ .ok a) ∧
          ∀ t, (Yaml.readText m').read ApplicationTemplate.read ≠ .ok t) ∧
    ((∀ e ∈ before ++ after, EntryIsTyped e) →
      ReadsAlike (Yaml.readText m) (Yaml.readText m') x) := by
  have textual := textual_of_readText text
  rw [text, text']
  have alike (each : ∀ e ∈ before ++ after, EntrySettles fields e) :
      ReadsAlike ⟨.mapping shape (before ++ after) complete, alone⟩
        ⟨.mapping shape' (before ++ (k, v) :: after) complete, alone⟩ x :=
    readsAlike_of_entrySettles unclaimed id value textual each
  refine ⟨⟨fun same => ?_, ?_⟩, fun typed => alike fun e member => (typed e member).entrySettles⟩
  · by_cases reads : ∃ a, Source.read ⟨.mapping shape (before ++ after) complete, alone⟩ read = .ok a
    · obtain ⟨a, here⟩ := reads
      obtain ⟨-, q, read, rfl⟩ := read_source_iff.1 here
      obtain ⟨-, others, q', settled, read', eq⟩ :=
        (read_template_source_iff unclaimed id value).1 ((same _).1 here)
      have record : q.record = q'.record := congrArg ApplicationTemplate.app eq
      exact .inl ((record_eq_iff_of_read apart textual read settled read').1 record)
    · refine .inr ⟨fun a here => reads ⟨a, here⟩, fun t there => ?_⟩
      obtain ⟨-, others, q, -, -, rfl⟩ := (read_template_source_iff unclaimed id value).1 there
      exact reads ⟨q.record, (same _).2 there⟩
  · rintro (each | ⟨unread, unread'⟩)
    · exact alike each
    · exact fun a => ⟨fun here => absurd here (unread a), fun there => absurd there (unread' _)⟩

def word (text : String) (plain : Bool) : Scalar := .written text plain none

def numberedName (plain : Bool) : Node × Node := (.scalar (word "name" true), .scalar (word "8080" plain))

def webId : Node × Node := (.scalar (word "id" true), .scalar (word "web" false))

/-- The events of a text that gives a numbered name, behind other entries. -/
def namedEvents (front : List Scalar) (plain : Bool) : List Event :=
  .openMapping (.written none) :: (front ++ [word "name" true, word "8080" plain]).map .scalar ++
    [.close]

theorem unclaimed_numberedName (plain : Bool) : Unclaimed ([] ++ [numberedName plain]) := by
  intro e member
  obtain rfl := List.mem_singleton.1 member
  exact ⟨fun same => absurd (Except.ok.inj same) (by decide),
    fun same => absurd (Except.ok.inj same) (by decide)⟩

theorem numberedName_entryIsTyped : EntryIsTyped (numberedName false) where
  settles := ⟨_, rfl⟩
  text := fun _ _ _ _ _ => ⟨"8080", rfl⟩
  processControl := fun same => absurd (Except.ok.inj same) (by decide)
  startParameters := fun same => absurd (Except.ok.inj same) (by decide)
  fixedVariables := fun same => absurd (Except.ok.inj same) (by decide)

theorem not_entrySettles_numberedName : ¬ EntrySettles fields (numberedName true) := by
  intro alike
  have settled : (numberedName true).2.settle? = some (.ofAtom (.number (.integer 8080))) := rfl
  have put := (alike.known "name" _ rfl rfl {} { name := some "8080" }).1 rfl
  obtain ⟨m, same, read⟩ := put
  obtain rfl := Option.some.inj (settled.symm.trans same)
  cases read

/-- A number is a name in both places iff it is quoted. -/
theorem readsAlike_numberedName :
    ReadsAlike (Yaml.readText "name: '8080'") (Yaml.readText "id: 'web'\nname: '8080'") "web" ∧
      ¬ ReadsAlike (Yaml.readText "name: 8080") (Yaml.readText "id: 'web'\nname: 8080") "web" := by
  have quoted : Yaml.readText "name: '8080'" =
      ⟨.mapping (.written none) ([] ++ [numberedName false]) true, true⟩ :=
    Yaml.readText_of_plainEvents? (show _ = some (namedEvents [] false) by decide +kernel)
  have quoted' : Yaml.readText "id: 'web'\nname: '8080'" =
      ⟨.mapping (.written none) ([] ++ webId :: [numberedName false]) true, true⟩ :=
    Yaml.readText_of_plainEvents?
      (show _ = some (namedEvents [word "id" true, word "web" false] false) by decide +kernel)
  have plain : Yaml.readText "name: 8080" =
      ⟨.mapping (.written none) ([] ++ [numberedName true]) true, true⟩ :=
    Yaml.readText_of_plainEvents? (show _ = some (namedEvents [] true) by decide +kernel)
  have plain' : Yaml.readText "id: 'web'\nname: 8080" =
      ⟨.mapping (.written none) ([] ++ webId :: [numberedName true]) true, true⟩ :=
    Yaml.readText_of_plainEvents?
      (show _ = some (namedEvents [word "id" true, word "web" false] true) by decide +kernel)
  constructor
  · refine (readsAlike_iff quoted quoted' rfl rfl (unclaimed_numberedName false)).2 fun e member => ?_
    obtain rfl := List.mem_singleton.1 member
    exact numberedName_entryIsTyped
  · intro alike
    rcases (readsAlike_iff plain plain' rfl rfl (unclaimed_numberedName true)).1.1 alike with
      each | ⟨unread, -⟩
    · exact not_entrySettles_numberedName (each _ List.mem_cons_self)
    · refine unread { name := some "8080" } ?_
      rw [plain, Source.read_eq_ok_iff]
      exact ⟨rfl, rfl⟩

end Application
end ProductTemplates
