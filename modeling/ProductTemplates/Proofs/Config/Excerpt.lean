import ProductTemplates.Config.Reading
import ProductTemplates.Proofs.Except
import ProductTemplates.Proofs.Text.Excerpt
import ProductTemplates.Proofs.Toml.Reader

/-! What a fault shows of the text of a configuration. Its line is that of a place of the text, so
the excerpt around it has that line in it or ends with the last one. -/
namespace ProductTemplates

namespace Toml

variable {told : Nat → Prop} {n : Node}

theorem Node.Knows.line? (known : n.Knows told) : ∀ line ∈ n.line?, told line := by
  cases known with
  | scalar own => simpa [Node.line?] using own
  | array own => simpa [Node.line?] using own
  | table own => exact own
  | tables each =>
    intro line own
    obtain ⟨last, found, there⟩ := Option.bind_eq_some_iff.1 own
    cases each last (List.mem_of_getLast? found) with
    | table here => exact here line there
    | _ => contradiction

end Toml

namespace Config

open Toml (Node Entries)

variable {told : Nat → Prop} {σ α : Type} {ss : List (Setting σ)} {r : σ} {es : Entries}
  {m : Mismatch} {text : String} {f : Fault}

/-- Whether a reader tells its mismatches by lines of the node that it reads. -/
def Points (told : Nat → Prop) (reader : Reader α) : Prop :=
  ∀ n m, n.Knows told → reader n = .error m → ∀ line ∈ m.line, told line

theorem points_mismatch {expected : String} : Points told (mismatch (α := α) expected) := by
  rintro n m known ⟨⟩
  exact known.line?

theorem points_natural : Points told natural := by
  intro n m known wrong
  unfold natural at wrong
  split at wrong
  · split at wrong
    · contradiction
    · obtain rfl := Except.error.inj wrong
      exact known.line?
  · exact points_mismatch n m known wrong

theorem points_boolean : Points told boolean := by
  intro n m known wrong
  unfold boolean at wrong
  split at wrong
  · contradiction
  · exact points_mismatch n m known wrong

theorem points_path : Points told path := by
  intro n m known wrong
  unfold path at wrong
  split at wrong
  · contradiction
  · exact points_mismatch n m known wrong

namespace Setting

def AllPoint (told : Nat → Prop) (ss : List (Setting σ)) : Prop :=
  ∀ s ∈ ss, ∀ r, Points told fun n => s.put n r

theorem points_of {name : String} {reader : Reader α} {set : α → σ → σ}
    (points : Points told reader) (r : σ) : Points told fun n => (of name reader set).put n r := by
  intro n m known wrong
  exact points n m known (map_eq_error_iff.1 wrong)

/-- A mismatch among entries has a line: that of its key if there is no other. -/
theorem line_of_readEntries (all : AllPoint told ss) (known : es.Knows told)
    (wrong : readEntries ss r es = .error m) : ∃ line, m.line = some line ∧ told line := by
  obtain ⟨⟨k, n⟩, member, r', here⟩ := exists_of_foldlM_eq_error wrong
  obtain ⟨key, value⟩ := known _ member
  dsimp only at here
  split at here
  · next s found =>
    obtain ⟨m', put, rfl⟩ := mapError_eq_error_iff.1 here
    rw [Mismatch.at]
    cases own : m'.line with
    | none => exact ⟨k.line, rfl, key⟩
    | some line =>
      have points := all s (List.mem_of_find?_eq_some found) r'
      exact ⟨line, rfl, points n m' value put line own⟩
  · contradiction

theorem line_of_readItems {ns : List Node} (all : AllPoint told ss) (each : ∀ n ∈ ns, n.Knows told)
    (wrong : readItems ss r ns = .error m) : ∀ line ∈ m.line, told line := by
  obtain ⟨⟨s, n⟩, member, r', here⟩ := exists_of_foldlM_eq_error wrong
  obtain ⟨setting, value⟩ := List.of_mem_zip member
  exact all s setting r' n m (each n value) here

theorem points_record {expected : String} (all : AllPoint told ss) (start : σ) :
    Points told (record expected ss start) := by
  intro n m known wrong
  unfold record at wrong
  split at wrong
  · obtain ⟨inside, -⟩ := Entries.knows_of_table known
    obtain ⟨line, same, there⟩ := line_of_readEntries all inside wrong
    simpa [same] using there
  · cases known with
    | array own each => exact line_of_readItems all each wrong
  · cases known with
    | tables each => exact line_of_readItems all (by simpa using each) wrong
  · contradiction
  · exact points_mismatch n m known wrong

end Setting

open Setting

theorem allPoint_settings : AllPoint told settings := by
  have resolution : AllPoint told resolutionSettings := by
    simp only [AllPoint, resolutionSettings, List.forall_mem_singleton]
    exact points_of points_natural
  have cache : AllPoint told cacheSettings := by
    simp only [AllPoint, cacheSettings, List.forall_mem_cons]
    exact ⟨points_of points_boolean, points_of points_path, by simp⟩
  simp only [AllPoint, settings, List.forall_mem_cons]
  exact ⟨points_of (points_record resolution _), points_of (points_record cache _), by simp⟩

/-- The line that a fault tells, with what it shows. -/
def Fault.shown? : Fault → Option (Nat × String)
  | unreadable line excerpt => some (line, excerpt)
  | mismatch line excerpt _ => some (line, excerpt)
  | invalid _ => none

theorem exists_place_of_lineAhead {line : Nat} (ahead : Toml.LineAhead ⟨text.toList, 1⟩ line) :
    ∃ place : text.Pos, Text.lineAt place = line := by
  obtain ⟨q, ⟨passed, cut, told⟩, rfl⟩ := ahead
  obtain ⟨place, same⟩ := Text.exists_place cut.symm
  exact ⟨place, by rw [same, told, Text.lineAfter, Nat.add_comm]⟩

/-- A fault of the grammar is told by the reader of the text, and one of a setting by the document
that was read. -/
theorem place_of_fault (h : ofText text = .error f) :
    ∀ shown ∈ f.shown?, (∃ place : text.Pos, Text.lineAt place = shown.1) ∧
      shown.2 = Text.excerpt text shown.1 := by
  have told := Toml.tells_readText text
  obtain wrong | ⟨es, read, h⟩ := bind_eq_error_iff.1 h
  · obtain ⟨line, read, rfl⟩ := mapError_eq_error_iff.1 wrong
    rw [read] at told
    cases told with
    | error ahead =>
      rintro shown ⟨⟩
      exact ⟨exists_place_of_lineAhead ahead, rfl⟩
  rw [mapError_eq_ok_iff.1 read] at told
  cases told with
  | ok known =>
    obtain wrong | ⟨c, -, h⟩ := bind_eq_error_iff.1 h
    · obtain ⟨m, mismatched, rfl⟩ := mapError_eq_error_iff.1 wrong
      obtain ⟨line, own, ahead⟩ := line_of_readEntries allPoint_settings known mismatched
      rintro shown ⟨⟩
      rw [own]
      exact ⟨exists_place_of_lineAhead ahead, rfl⟩
    · obtain invalid | ⟨-, -, h⟩ := bind_eq_error_iff.1 h
      · obtain ⟨why, -, rfl⟩ := mapError_eq_error_iff.1 invalid
        simp [Fault.shown?]
      · contradiction

/-- Whatever place of a text an error points at, its excerpt shows the right lines, and the line of
every error is that of a place. -/
theorem excerpt_shows_lines (text : String) :
    (∀ place : text.Pos, Text.ShowsLineOf place (Text.excerpt text (Text.lineAt place))) ∧
      ∀ f, ofText text = .error f → ∀ shown ∈ f.shown?, ∃ place : text.Pos,
        Text.lineAt place = shown.1 ∧ Text.ShowsLineOf place shown.2 := by
  refine ⟨Text.showsLineOf_excerpt, fun f h shown told => ?_⟩
  obtain ⟨⟨place, line⟩, excerpt⟩ := place_of_fault h shown told
  have shows := Text.showsLineOf_excerpt place
  rw [line, ← excerpt] at shows
  exact ⟨place, line, shows⟩

/-- A setting of the wrong kind, on the last line. -/
example : ofText "[resolution]\nmax_depth = \"deep\"\n" =
    .error (.mismatch 2 "       1 | [resolution]\n>>>    2 | max_depth = \"deep\""
      "invalid type: string \"deep\", expected usize") := by
  cbv

end Config
end ProductTemplates
