import GatewayDocs.Shape.Objects
import GatewayDocs.Text.Case
import GatewayDocs.Value.Place

/-! # Settings of a compilation

The settings say under which interface the models are created, whether independent models
are chained and how wide, and whether request parameters are left alone.  They come from
the `provider` section of a service; two environment variables override the chaining
(`CompileSettings.ofService`). -/

namespace GatewayDocs
open Shape

/-- The width of chains unless another is given. -/
def defaultWidth : Int := 10

/-- The interface that models are created under unless another is given. -/
def defaultRestApi : Value := .ofPairs [("Ref", .str "ApiGatewayRestApi")]

/-- Whether independent models are chained, and how many chains there are. -/
structure ChunkingConfig where
  enabled : Bool
  width : Positive

namespace ChunkingConfig

/-- No chaining. -/
def off : ChunkingConfig := ⟨false, ⟨defaultWidth, by decide⟩⟩

/-- Reads the chaining from the pairs of an object. -/
def ofFields (fields : Fields) : Checked ChunkingConfig :=
  mk <$> optional ["enabled"] false flag fields
    <*> optional ["width"] ⟨defaultWidth, by decide⟩ positive fields

/-- Reads the chaining. -/
def ofValue (v : Value) : Checked ChunkingConfig := record ofFields v

/-- Writes the chaining. -/
def toValue (c : ChunkingConfig) : Value :=
  .ofPairs [("enabled", .bool c.enabled), ("width", .int c.width)]

end ChunkingConfig

/-- The settings of a compilation. -/
structure CompileSettings where
  restApi : Value
  chunking : ChunkingConfig
  safeMode : Bool

/-- The environment variables that override the settings. -/
structure SplitEnvironment where
  splitModels : Option String
  splitLimit : Option String

namespace CompileSettings

/-- The settings unless others are given. -/
def standard : CompileSettings := ⟨defaultRestApi, .off, false⟩

/-- Reads settings from the pairs of an object. -/
def ofFields (fields : Fields) : Checked CompileSettings :=
  mk <$> optional ["rest_api_id"] defaultRestApi (fun v => .ok v) fields
    <*> optional ["chunking"] .off ChunkingConfig.ofValue fields
    <*> optional ["safe_mode"] false flag fields

/-- Reads settings. -/
def ofValue (v : Value) : Checked CompileSettings := record ofFields v

/-- Writes settings. -/
def toValue (s : CompileSettings) : Value :=
  .ofPairs [("rest_api_id", s.restApi), ("chunking", s.chunking.toValue),
    ("safe_mode", .bool s.safeMode)]

/-- The object under a path of keys; empty if there is none. -/
def subsection : List String → Value → Fields
  | [], v => v.fields?.getD []
  | key :: rest, v => subsection rest ((v.field? key).getD .null)

/-- The words that switch chaining on. -/
def onWords : List String := ["1", "true", "yes", "on"]

/-- A value, or another if it counts as false. -/
def orElse (v other : Value) : Value := if v.truthy then v else other

/-- An environment variable without blanks around it, if anything is left. -/
def given? (setting : Option String) : Option String :=
  let s := Text.strip (setting.getD "")
  if s = "" then none else some s

/-- The width of chains that is asked for, not yet read: that of the environment, or else that of
the service, or else the default. -/
def widthAsked (service : Value) (env : SplitEnvironment) : Value :=
  match given? env.splitLimit with
  | some word => .str word
  | none =>
    let documentation := subsection ["provider", "documentation"] service
    orElse (documentation.get "splitModelsLimit") (.int defaultWidth)

/-- The settings that a service asks for. -/
def ofService (service options : Value) (env : SplitEnvironment) : Result CompileSettings := do
  let documentation := subsection ["provider", "documentation"] service
  let gateway := subsection ["provider", "apiGateway"] service
  let enabled :=
    match given? env.splitModels with
    | some word => onWords.contains (Text.lower word)
    | none => (documentation.get "splitModels").truthy
  let asked := .ofPairs [("enabled", .bool enabled), ("width", widthAsked service env)]
  let chunking ← (ChunkingConfig.ofValue asked).orInvalid "ChunkingConfig"
  let options ← if options.truthy then options.asObject else .ok []
  return {
    restApi := (orElse (gateway.get "restApiId") defaultRestApi).copied
    chunking
    safeMode := (options.get "doc-safe-mode").truthy }

end CompileSettings
end GatewayDocs
