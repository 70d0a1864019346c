import ProductTemplates.Decimal.Notation
import ProductTemplates.OverrideSet

/-! Resolving an application: values are pushed down its chain of templates, substituted on the
way, and gaps are filled on the way back. The caller's list of free variables grows by those of
the chain that nobody fixes. -/
namespace ProductTemplates

abbrev Catalogue := List ApplicationTemplate

namespace Catalogue

/-- The first template with this id counts. -/
def find? (c : Catalogue) (id : String) : Option ApplicationTemplate := List.find? (·.id == id) c

def unseen (c : Catalogue) (seen : List String) : Nat := c.countP fun t => !seen.contains t.id

end Catalogue

/-- What can be resolved: an application as it stands in a group, or a template with its id. -/
inductive Resolvable where
  | application (a : Application)
  | template (t : ApplicationTemplate)
deriving Repr, Inhabited

namespace Resolvable

/-- Only templates take part in the search for cycles. -/
def identity : Resolvable → Option String
  | application _ => none
  | template t => some t.id

def body : Resolvable → Application
  | application a => a
  | template t => t.app

@[simp] theorem identity_application (a : Application) : (application a).identity = none := rfl
@[simp] theorem identity_template (t : ApplicationTemplate) : (template t).identity = some t.id :=
  rfl
@[simp] theorem body_application (a : Application) : (application a).body = a := rfl
@[simp] theorem body_template (t : ApplicationTemplate) : (template t).body = t.app := rfl

/-- What messages call it. -/
def label (r : Resolvable) : String :=
  ((r.identity <|> r.body.name) <|> r.body.application).getD "<unnamed>"

end Resolvable

inductive ResolutionError where
  /-- The ids walked, the last of which was met before. -/
  | circular (chain : List String)
  /-- Neither an application nor a template to inherit from. -/
  | missingReference (name : String)
  | tooDeep (id : String) (limit : Nat)
deriving Repr, DecidableEq

namespace ResolutionError

def isCycle : ResolutionError → Bool
  | circular _ => true
  | _ => false

def message : ResolutionError → String
  | circular chain => "circular application template definition: " ++ " -> ".intercalate chain
  | missingReference name =>
    "template '" ++ name ++ "' has neither an application nor a template reference"
  | tooDeep id limit =>
    "application template chain deeper than " ++ Decimal.naturalText limit ++
      " levels at '" ++ id ++ "'"

end ResolutionError

/-- An application without a template, `none` if a template of its chain does not exist. -/
abbrev Outcome := Except ResolutionError (Option Application)

/-- How many identified templates a chain may have unless the caller says otherwise. -/
def defaultMaxDepth : Nat := 64

namespace Application

def fillIn (values : OverrideSet) (a : Application) : Application :=
  { a with
    name := a.name.map values.apply
    startParameters := a.startParameters.map fun p => { p with value := p.value.map values.apply } }

end Application

namespace Resolution

/-- Adds the variables of an ancestor that are neither there yet nor fixed by a caller. -/
def surface (exposed ancestral : List TemplateVariable) (inherited : OverrideSet) :
    List TemplateVariable :=
  ancestral.foldl
    (fun vs v => if vs.any (·.id == v.id) || inherited.contains v.id then vs else vs ++ [v]) exposed

/-- What a template fixes is not free above it; a bare application leaves the list alone. -/
def withdraw (node : Resolvable) (fixed : OverrideSet) (exposed : List TemplateVariable) :
    List TemplateVariable :=
  if node.identity.isSome then exposed.filter fun v => !fixed.contains v.id else exposed

def visit (visited : List String) (node : Resolvable) : List String :=
  visited ++ node.identity.toList

/-- Room left on the walk: catalogue entries not visited, and one step onto the catalogue. -/
def room (catalogue : Catalogue) (visited : List String) (node : Resolvable) : Nat :=
  catalogue.unseen visited +
    if node.identity.any fun id => (catalogue.find? id).isSome then 0 else 1

theorem unseen_le (c : Catalogue) (seen more : List String) :
    c.unseen (seen ++ more) ≤ c.unseen seen := by
  apply List.countP_mono_left
  intro t _ h
  simp only [List.contains_eq_mem, List.mem_append, Bool.not_eq_true', decide_eq_false_iff_not] at h ⊢
  exact fun hm => h (.inl hm)

theorem unseen_lt (c : Catalogue) (seen : List String) (id : String)
    (known : (c.find? id).isSome = true) (fresh : id ∉ seen) :
    c.unseen (seen ++ [id]) < c.unseen seen := by
  obtain ⟨t, ht⟩ := Option.isSome_iff_exists.1 known
  have member := List.mem_of_find?_eq_some ht
  have same : t.id = id := by simpa using List.find?_some ht
  unfold Catalogue.unseen
  clear ht known
  induction c with
  | nil => simp at member
  | cons d rest ih =>
    have mono := unseen_le rest seen [id]
    unfold Catalogue.unseen at mono
    rw [List.countP_cons, List.countP_cons]
    rcases List.mem_cons.1 member with rfl | member
    · have now : (!seen.contains t.id) = true := by simp [same, fresh]
      have gone : ¬(!(seen ++ [id]).contains t.id) = true := by simp [same]
      rw [if_pos now, if_neg gone]; omega
    · have := ih member
      by_cases h : (!(seen ++ [id]).contains d.id) = true
      · have : (!seen.contains d.id) = true := by
          simp only [List.contains_eq_mem, List.mem_append, Bool.not_eq_true',
            decide_eq_false_iff_not] at h ⊢
          exact fun hm => h (.inl hm)
        rw [if_pos h, if_pos this]; omega
      · rw [if_neg h]; omega

theorem room_lt (catalogue : Catalogue) (visited : List String) (node : Resolvable)
    (parent : ApplicationTemplate) (id : String) (found : catalogue.find? id = some parent)
    (fresh : ∀ own ∈ node.identity, own ∉ visited) :
    room catalogue (visit visited node) (.template parent) < room catalogue visited node := by
  have same : parent.id = id := by simpa using List.find?_some found
  simp only [room, visit]
  simp only [Resolvable.identity_template, Option.any_some, same, found, Option.isSome_some, if_true, Nat.add_zero]
  cases own : node.identity with
  | none => simp
  | some me =>
    have := unseen_le catalogue visited [me]
    by_cases known : (catalogue.find? me).isSome = true
    · have := unseen_lt catalogue visited me known (fresh me own)
      simp [known]; omega
    · simp [known]; omega

/-- One level of the chain and all above it: the application without a template, and the caller's
free variables afterwards. An outcome of `none` means that a template of the chain does not exist.
The recursion ends because no template is walked twice. -/
def resolveNode (catalogue : Catalogue) (maxDepth : Nat) (visited : List String)
    (node : Resolvable) (exposed : List TemplateVariable) (inherited : OverrideSet) :
    Outcome × List TemplateVariable :=
  if _fresh : ∀ own ∈ node.identity, own ∉ visited then
    let visited' := visit visited node
    if maxDepth < visited'.length then (.error (.tooDeep node.label maxDepth), exposed)
    else if node.body.application.isNone && node.body.template.isNone then
      (.error (.missingReference node.label), exposed)
    else
      let fixed := inherited.merge node.body.fixedVariables
      let app := node.body.fillIn fixed
      match node.body.template with
      | none => (.ok (some app), withdraw node fixed exposed)
      | some id =>
        match _found : catalogue.find? id with
        | none => (.ok none, exposed)
        | some parent =>
          match resolveNode catalogue maxDepth visited' (.template parent)
              parent.templateVariables fixed with
          | (.error e, _) => (.error e, exposed)
          | (.ok none, _) => (.ok none, exposed)
          | (.ok (some above), surfaced) =>
            (.ok (some (app.inherit above)),
              withdraw node fixed (surface exposed surfaced inherited))
  else (.error (.circular (visit visited node)), exposed)
termination_by room catalogue visited node
decreasing_by exact room_lt catalogue visited node parent id _found _fresh

end Resolution

namespace Catalogue

/-- Resolves a node against a catalogue, with the values that its caller fixes: what becomes of it,
and the caller's free variables afterwards. -/
def resolution (catalogue : Catalogue) (maxDepth : Nat) (node : Resolvable)
    (exposed : List TemplateVariable) (inherited : OverrideSet) : Outcome × List TemplateVariable :=
  Resolution.resolveNode catalogue maxDepth [] node exposed inherited

structure Resolved where
  app : Application
  exposed : List TemplateVariable
deriving Repr, Inhabited

/-- Resolves a node for callers that keep their list unless there is an application. -/
def resolve (catalogue : Catalogue) (maxDepth : Nat) (node : Resolvable)
    (exposed : List TemplateVariable) (inherited : OverrideSet) :
    Except ResolutionError (Option Resolved) :=
  let (outcome, exposed) := catalogue.resolution maxDepth node exposed inherited
  outcome.map fun app? => app?.map (⟨·, exposed⟩)

end Catalogue
end ProductTemplates
