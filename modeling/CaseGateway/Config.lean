/-
The configuration of the server, from named settings.
-/
import CaseGateway.Number.Sized
import CaseGateway.Value.Format

namespace CaseGateway

/-- How the server is set up. -/
structure Config where
  bindAddress : String
  /-- What all paths begin with: empty, or a slash and a text without slashes at its ends. -/
  basePath : String
  formats : DataFormats
  /-- The greatest number of bytes a body may have. -/
  maxUploadBytes : Nat

namespace Config

/-- The set-up without any settings. -/
def standard : Config :=
  { bindAddress := "0.0.0.0:8080"
    basePath := "/engine-rest"
    formats := .builtIn
    maxUploadBytes := 10 * 1024 * 1024 }

instance : Inhabited Config := ⟨standard⟩

/-- A base path from a setting, in which slashes and blanks around it do not matter. -/
def basePathOf (raw : String) : String :=
  let trimmed := Text.stripEnds (· == '/') (Text.trim raw).toList
  if trimmed.isEmpty then "" else String.ofList ('/' :: trimmed)

/-- A size in bytes: an optional plus sign and digits, below 2⁶⁴. -/
def sizeOf? (raw : String) : Option Nat :=
  match (Text.trim raw).toList with
  | '-' :: _ => none
  | cs =>
    match integerOfText? (String.ofList cs) with
    | some n => if n < 0x10000000000000000 then some n.toNat else none
    | none => none

/-- A setting without a meaning. -/
inductive Fault
  | notASize (raw : String)
  deriving DecidableEq, Repr

/-- The wording of a fault. -/
def Fault.message : Fault → String
  | .notASize raw => "ENGINE_REST_MAX_UPLOAD_BYTES is not a size: " ++ raw

/-- The set-up under some settings; what is not set keeps its standard. -/
def ofSettings (lookup : String → Option String) : Except Fault Config := do
  let maxUploadBytes ← match lookup "ENGINE_REST_MAX_UPLOAD_BYTES" with
    | none => .ok standard.maxUploadBytes
    | some raw =>
      match sizeOf? raw with
      | some n => .ok n
      | none => .error (.notASize raw)
  return {
    bindAddress := (lookup "ENGINE_REST_BIND_ADDR").getD standard.bindAddress
    basePath := ((lookup "ENGINE_REST_BASE_PATH").map basePathOf).getD standard.basePath
    formats := ((lookup "ENGINE_REST_DATA_FORMATS").map DataFormats.ofList).getD standard.formats
    maxUploadBytes }

end Config

end CaseGateway
