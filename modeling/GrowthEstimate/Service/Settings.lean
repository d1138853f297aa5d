import GrowthEstimate.Analysis
import GrowthEstimate.Schema.Reader

/-!
# Settings of the service

The settings are read from environment variables, whose names count in any case.  Each has a
default, and every one that does not fit is reported.
-/

namespace GrowthEstimate.Service

open Schema (Checked Reader orProblem)
open Text (trim lowercase)

inductive LogLevel
  | debug
  | info
  | warning
  | error
  deriving DecidableEq

namespace LogLevel

def all : List LogLevel := [debug, info, warning, error]

def name : LogLevel → Text
  | debug => "DEBUG".toList
  | info => "INFO".toList
  | warning => "WARNING".toList
  | error => "ERROR".toList

def read : Reader LogLevel
  | .text s => orProblem .unknownChoice (all.find? fun l => l.name == s)
  | _ => .fault .unknownChoice

end LogLevel

structure Settings where
  host : Text
  port : Int
  debug : Bool
  logLevel : LogLevel
  engineLogLevel : LogLevel
  allowedOrigins : Text
  maxCodeLength : Int

/-- Environment variables by name, in the order in which they were set. -/
abbrev Environment := List (Text × Text)

/-- The value of a variable; of several names that differ in case only, the last one counts. -/
def valueOf? (name : String) (env : Environment) : Option Text :=
  (env.reverse.find? fun (key, _) => lowercase key == lowercase name.toList).map (·.2)

def setting {α : Type} (name : String) (default : α) (read : Reader α) (env : Environment) :
    Checked α :=
  match valueOf? name env with
  | some value => (read (.text value)).under name.toList
  | none => .accepted default

/-- A length limit: positive, and no more than a text that is analysed may have. -/
def lengthLimit : Reader Int := fun j =>
  (Schema.int j).bind fun n =>
    if hardLimit < n then .fault .aboveMaximum
    else if n ≤ 0 then .fault .notAboveBound
    else .accepted n

namespace Settings

def ofEnvironment (env : Environment) : Checked Settings :=
  Settings.mk
    <$> setting "HOST" "0.0.0.0".toList Schema.text env
    <*> setting "PORT" 8080 Schema.int env
    <*> setting "DEBUG" false Schema.bool env
    <*> setting "LOG_LEVEL" .info LogLevel.read env
    <*> setting "ENGINE_LOG_LEVEL" .warning LogLevel.read env
    <*> setting "ALLOWED_ORIGINS" "*".toList Schema.text env
    <*> setting "MAX_CODE_LENGTH" hardLimit lengthLimit env

def anyOrigin : Text := "*".toList

/-- The trimmed pieces between commas that are not blank. -/
def originPieces (s : Text) : List Text := ((s.splitOn ',').map trim).filter (!·.isEmpty)

/-- The origins that may call the service; the one that stands for all makes the others
needless. -/
def originsOf (s : Text) : List Text :=
  if (originPieces s).contains anyOrigin then [anyOrigin] else originPieces s

def origins (s : Settings) : List Text := originsOf s.allowedOrigins

/-- Whether calls from other origins may carry credentials: not when all origins may call. -/
def allowsCredentials (s : Settings) : Bool := !s.origins.contains anyOrigin

end Settings

end GrowthEstimate.Service
