/-!
# `Filestore.Json`: writing JSON

The values that results are made of, and their text without any white space. Fields keep the order
they are given in. In a string a quote, a backslash and the control characters below U+0020 are
escaped, and everything else stands for itself, characters past ASCII included. Five of the
control characters have an escape of one letter; the others are written with their code point in
four digits.

This is a writer only. An object is a list of fields and an array one of strings, since results
are made of nothing deeper; numbers are natural and are written in decimal. That no two lists of
fields are written alike, and that an object takes one line, is proved in `Filestore.Proofs.Json`,
so what is written can be read back.
-/

set_option autoImplicit false

namespace Filestore

/-- A JSON value as results need it. -/
inductive Json where
  /-- `true` or `false`. -/
  | bool (value : Bool)
  /-- A natural number. -/
  | nat (value : Nat)
  /-- A string. -/
  | text (value : String)
  /-- An array of strings. -/
  | texts (values : List String)
  deriving DecidableEq, Repr

namespace Json

/-- A character below U+0020 as four hexadecimal digits. -/
def escapeCode (c : Char) : List Char :=
  ['\\', 'u', '0', '0', Nat.digitChar (c.toNat / 16), Nat.digitChar (c.toNat % 16)]

/-- A character as it stands in a string. -/
def escape (c : Char) : List Char :=
  if c = '"' then ['\\', '"']
  else if c = '\\' then ['\\', '\\']
  else if c = '\x08' then ['\\', 'b']
  else if c = '\t' then ['\\', 't']
  else if c = '\n' then ['\\', 'n']
  else if c = '\x0c' then ['\\', 'f']
  else if c = '\r' then ['\\', 'r']
  else if c.toNat < 0x20 then escapeCode c
  else [c]

/-- A string in quotes. -/
def quote (text : String) : List Char := '"' :: text.toList.flatMap escape ++ ['"']

/-- The text of a value. -/
def chars : Json → List Char
  | .bool true => ['t', 'r', 'u', 'e']
  | .bool false => ['f', 'a', 'l', 's', 'e']
  | .nat value => Nat.toDigits 10 value
  | .text value => quote value
  | .texts values => '[' :: [','].intercalate (values.map quote) ++ [']']

/-- A field with its value. -/
abbrev Field := String × Json

/-- The text of a field. -/
def fieldChars (field : Field) : List Char := quote field.1 ++ ':' :: field.2.chars

/-- The text of an object with the given fields. -/
def object (fields : List Field) : String :=
  String.ofList ('\x7b' :: [','].intercalate (fields.map fieldChars) ++ ['\x7d'])

end Json

end Filestore
