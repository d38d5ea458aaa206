import LatteCode.Core.Session
/- The closed catalog of built-in commands, and slash recognition in the composer. -/

namespace LatteCode.Tui

inductive BuiltinCommand where
  | new
  | sessions
  | rename
  | fork
  | model
  | help
  | navigation
  | refresh
  | quit
deriving DecidableEq, Repr

inductive ArgumentPolicy where
  | forbidden
  | optional
  | required
deriving DecidableEq, Repr

structure CommandDescriptor where
  id : BuiltinCommand
  name : String
  aliases : List String
  arguments : ArgumentPolicy
deriving DecidableEq, Repr

def BUILTINS : List CommandDescriptor := [
  ⟨.new, "new", [], .forbidden⟩,
  ⟨.sessions, "sessions", ["resume"], .optional⟩,
  ⟨.model, "model", [], .forbidden⟩,
  ⟨.help, "help", [], .forbidden⟩,
  ⟨.navigation, "navigation", ["nav"], .forbidden⟩,
  ⟨.refresh, "refresh", [], .forbidden⟩,
  ⟨.quit, "quit", ["exit", "q"], .forbidden⟩,
  ⟨.rename, "rename", [], .required⟩,
  ⟨.fork, "fork", ["branch"], .optional⟩]

inductive SlashResolution where
  | prompt
  | command (descriptor : CommandDescriptor) (argument : String)
  | validationError (message : String)
deriving DecidableEq, Repr

def validNameByte (byte : Char × Nat) : Bool :=
  ('a' ≤ byte.1 && byte.1 ≤ 'z') || ('0' ≤ byte.1 && byte.1 ≤ '9') ||
    (byte.2 > 0 && [':', '_', '-'].contains byte.1)

/-- A name is ASCII, so its characters are its bytes. -/
def validName (value : List Char) : Bool :=
  !value.isEmpty && value.length ≤ 64 && value.zipIdx.all validNameByte

def CommandDescriptor.names (descriptor : CommandDescriptor) : List (List Char) :=
  (descriptor.name :: descriptor.aliases).map String.toList

/-- Only a slash in the first byte is eligible; unknown names stay prompt text. -/
def resolveSlash (value : String) : SlashResolution :=
  match value.toList with
  | '/' :: candidate =>
      let name := candidate.takeWhile fun c => !isWhitespace c
      if validName name = false then .prompt
      else
        match BUILTINS.find? fun descriptor => descriptor.names.contains name with
        | none => .prompt
        | some descriptor =>
            let argument := trim (String.ofList (candidate.drop name.length))
            if descriptor.arguments = .forbidden ∧ argument ≠ "" then
              .validationError ("/" ++ descriptor.name ++ " does not accept arguments")
            else if descriptor.arguments = .required ∧ argument = "" then
              .validationError ("/" ++ descriptor.name ++ " requires an argument")
            else .command descriptor argument
  | _ => .prompt

/-- An exact name, then a prefix of the name, then a prefix of an alias. -/
def slashRank (value : List Char) (descriptor : CommandDescriptor) : Option Nat :=
  if descriptor.names.contains value then some 0
  else if value.isPrefixOf descriptor.name.toList then some 1
  else if descriptor.aliases.any fun name => value.isPrefixOf name.toList then some 2
  else none

def slashSuggestions (value : String) : List CommandDescriptor :=
  match value.toList with
  | '/' :: candidate =>
      if candidate.any isWhitespace ∨ (candidate ≠ [] ∧ validName candidate = false) ∨ candidate.length > 64 then []
      else [0, 1, 2].flatMap fun rank => BUILTINS.filter fun descriptor => slashRank candidate descriptor = some rank
  | _ => []

end LatteCode.Tui
