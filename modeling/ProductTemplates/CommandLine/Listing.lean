import ProductTemplates.Bundle
import ProductTemplates.CommandLine.Arguments
import ProductTemplates.Text.Excerpt

/-! The names of resolved templates in columns. Widths count characters. -/
namespace ProductTemplates.CommandLine

open Text (padLeft padRight)

/-- A heading with the number of lines, the lines, and an empty line. -/
def listSection {α : Type} (heading : String) (row : α → String) (xs : List α) : String :=
  heading ++ " (" ++ Decimal.naturalText xs.length ++ "):\n" ++
    String.join (xs.map fun x => "  " ++ row x ++ "\n") ++ "\n"

def instanceRow (t : InstanceTemplate) : String :=
  let applications := (t.groups.flatMap (·.applications)).length
  padRight 40 t.name ++ " " ++ padLeft 3 (Decimal.naturalText t.groups.length) ++ " group(s) " ++
    padLeft 3 (Decimal.naturalText applications) ++ " application(s)"

def applicationRow (t : ApplicationTemplate) : String :=
  padRight 30 t.id ++ " " ++ padRight 40 t.displayName ++ " " ++ t.app.application.getD "-"

def parameterRow (t : ParameterTemplate) : String := padRight 30 t.id ++ " " ++ t.name.getD "-"

def listing (only : Option Listed) (b : Bundle) : String :=
  let wanted (kind : Listed) (text : String) := if only.all (· = kind) then text else ""
  wanted .instances (listSection "Instance Templates" instanceRow b.instanceTemplates) ++
    wanted .applications
      (listSection "Application Templates" applicationRow b.applicationTemplates) ++
    wanted .parameters (listSection "Parameter Templates" parameterRow b.parameterTemplates)

end ProductTemplates.CommandLine
