import GatewayDocs.Text.Case
import GatewayDocs.Text.Word

/-! # Logical ids

A template names the method resource of an endpoint by its path and method.  Every part of
the path becomes letters and digits: a hyphen is spelled out, a name in braces is marked as
a variable, all other characters are dropped, and the first character is a capital
(`partName`).  The parts are joined without anything between (`pathName`). -/

namespace GatewayDocs.Naming
open Text

/-- Spells out hyphens and drops plus signs. -/
def spell (cs : List Char) : List Char :=
  cs.flatMap fun c => if c = '-' then "Dash".toList else if c = '+' then [] else [c]

/-- Splits at the last closing brace of the line that a text starts with. -/
def splitAtLastBrace : List Char → Option (List Char × List Char)
  | [] => none
  | c :: rest =>
    if c = '\n' then none
    else
      match splitAtLastBrace rest with
      | some (inside, after) => some (c :: inside, after)
      | none => if c = '\x7d' then some ([], rest) else none

theorem length_of_splitAtLastBrace {cs inside after : List Char}
    (h : splitAtLastBrace cs = some (inside, after)) : after.length < cs.length := by
  induction cs generalizing inside after with
  | nil => simp [splitAtLastBrace] at h
  | cons c rest ih =>
    rw [splitAtLastBrace] at h
    split at h
    · simp at h
    · split at h
      · rename_i i a hr
        have := ih hr
        simp only [Option.some.injEq, Prod.mk.injEq] at h
        obtain ⟨-, rfl⟩ := h
        simp only [List.length_cons]
        omega
      · split at h
        · simp only [Option.some.injEq, Prod.mk.injEq] at h
          obtain ⟨-, rfl⟩ := h
          simp
        · simp at h

/-- Replaces every pair of braces that are the first and the last on a line by what stands
between them and a mark. -/
def markVariables (cs : List Char) : List Char :=
  match cs with
  | [] => []
  | c :: rest =>
    if c = '\x7b' then
      match _h : splitAtLastBrace rest with
      | some (inside, after) => inside ++ "Var".toList ++ markVariables after
      | none => c :: markVariables rest
    else c :: markVariables rest
termination_by cs.length
decreasing_by
  · have := length_of_splitAtLastBrace _h
    simp only [List.length_cons]
    omega
  · simp
  · simp

/-- The name of a part of a path, as characters. -/
def partNameChars (cs : List Char) : List Char :=
  upperFirst ((markVariables (spell cs)).filter isAsciiAlnum)

/-- The parts of a path: what stands between slashes, if anything. -/
def pathParts : List Char → List (List Char)
  | cs => (cs.splitOn '/').filter fun part => !part.isEmpty

/-- The name of a path, as characters. -/
def pathNameChars (cs : List Char) : List Char := (pathParts cs).flatMap partNameChars

/-- The name of a part of a path. -/
def partName (part : String) : String := String.ofList (partNameChars part.toList)

/-- The name of a path. -/
def pathName (path : String) : String := String.ofList (pathNameChars path.toList)

/-- The name of a method: small letters after a capital. -/
def methodName (method : String) : String :=
  String.ofList (upperFirst (lower method).toList)

/-- The logical id of a method resource. -/
def logicalId (path method : String) : String :=
  "ApiGatewayMethod" ++ pathName path ++ methodName method

end GatewayDocs.Naming
