import RConsole.Config.Reader
import RConsole.Text.Pieces
import RConsole.Text.Utf8

namespace RConsole.Config

open Toml (Span)

inductive Error where
  | malformed
  | wrongKind (found wanted : String)
  | negative (value : Int)
  | unknownVariant (name : String)
  | notVariant
  | variantCount (many : Bool)
  | variantPayload (message : String)
  deriving DecidableEq, Repr

def Error.message : Error → String
  | .malformed => "not a TOML document"
  | .wrongKind found wanted => "invalid type: " ++ found ++ ", expected " ++ wanted
  | .negative value => "invalid value: integer `" ++ toString value ++ "`, expected u64"
  | .unknownVariant name =>
    "unknown variant `" ++ name ++ "`, expected one of `emacs`, `vi`, `vim`"
  | .notVariant => "wanted string or table"
  | .variantCount false => "wanted exactly 1 element, found 0 elements"
  | .variantCount true => "wanted exactly 1 element, more than 1 element"
  | .variantPayload message => message

structure Fault where
  error : Error
  span : Option Span := none
  deriving DecidableEq, Repr

def blame {α : Type} (span : Option Span) : Except Fault α → Except Fault α
  | .ok a => .ok a
  | .error fault => .error { fault with span := fault.span.or span }

namespace Fault

def blanks (n : Nat) : String := String.ofList (List.replicate n ' ')

def size (cs : List Char) : Nat := (Utf8.encode cs).length

def shown (source : List Char) (span : Span) : String :=
  let start := source.length - span.start
  let before := source.take start
  let lead := (before.reverse.takeWhile (· ≠ '\n')).reverse
  let line := lead ++ (source.drop start).takeWhile (· ≠ '\n')
  let number := toString (before.count '\n' + 1)
  let marked := min (size ((source.drop start).take (span.start - span.stop)))
    (size line - lead.length)
  let margin := blanks (number.length + 1) ++ "|"
  "TOML parse error at line " ++ number ++ ", column " ++ toString (lead.length + 1) ++ "\n" ++
    margin ++ "\n" ++ number ++ " | " ++ String.ofList line ++ "\n" ++ margin ++
    blanks (lead.length + 1) ++ String.ofList (List.replicate (max 1 marked) '^') ++ "\n"

def text (source : String) (f : Fault) : String :=
  (match f.span with
    | some span => shown source.toList span
    | none => "") ++ f.error.message ++ "\n"

end Fault

end RConsole.Config
