import Sidecar.Config.ReadFault
import Sidecar.Json.Document
import Sidecar.Json.Lexeme

/-!
# Configurations in JSON

A configuration is a record of some of its fields in any order, or a list of the first of them in
their own order. A codec is its name, or a record with its name as the only key and null as its
value. The lexemes of the source are read from left to right and the first fault counts; a fault of
kind or range is found when the lexeme that begins the value has been read.
-/

namespace Sidecar.Config

open Json (Lexeme)

/-- What a lexeme is where a value is wanted; some begin no value. -/
def Found.ofLexeme? : Lexeme → Option Found
  | .null => some .null
  | .bool b => some (.bool b)
  | .number (.integer n) => some (.integer n)
  | .number (.float x) => some (.float (Shortest.render .compact x))
  | .text s => some (.text s)
  | .openList => some .sequence
  | .openRecord => some .map
  | _ => none

/-- Reads one lexeme as a value without parts. -/
def readScalar {α : Type} (read : Found → Read α) : List Lexeme → Read (α × List Lexeme)
  | l :: rest =>
    match Found.ofLexeme? l with
    | some found => (read found).map fun value ↦ (value, rest)
    | none => .error .malformed
  | [] => .error .malformed

/-- Reads the items of a list that has had items, up to its closing bracket. -/
def readMoreItems {α : Type} (read : Found → Read α) : List Lexeme → Read (List α × List Lexeme)
  | .closeList :: rest => .ok ([], rest)
  | .comma :: l :: rest =>
    match Found.ofLexeme? l with
    | none => .error .malformed
    | some found =>
      match read found with
      | .error fault => .error fault
      | .ok item =>
        (readMoreItems read rest).map fun (items, rest) ↦ (item :: items, rest)
  | _ => .error .malformed

/-- Reads a list of values without parts. -/
def readList {α : Type} (read : Found → Read α) : List Lexeme → Read (List α × List Lexeme)
  | .openList :: .closeList :: rest => .ok ([], rest)
  | .openList :: rest => do
    let (item, rest) ← readScalar read rest
    let (items, rest) ← readMoreItems read rest
    .ok (item :: items, rest)
  | l :: _ =>
    match Found.ofLexeme? l with
    | some found => .error (.wrongKind found .sequence)
    | none => .error .malformed
  | [] => .error .malformed

/-- Reads the rest of a codec written as a record, after its key. -/
def readCodecBody (codec : Codec) : List Lexeme → Read (Codec × List Lexeme)
  | .colon :: .null :: .closeRecord :: rest => .ok (codec, rest)
  | .colon :: .null :: _ => .error .malformed
  | .colon :: l :: _ =>
    match Found.ofLexeme? l with
    | some found => .error (.wrongKind found .nothing)
    | none => .error .malformed
  | _ => .error .malformed

/-- Reads a codec. -/
def readCodec : List Lexeme → Read (Codec × List Lexeme)
  | .text name :: rest => (readCodecName name).map fun codec ↦ (codec, rest)
  | .openRecord :: .text name :: rest => do readCodecBody (← readCodecName name) rest
  | .openRecord :: l :: _ =>
    match Found.ofLexeme? l with
    | some found => .error (.wrongKind found .codecName)
    | none => .error .malformed
  | _ => .error .malformed

/-- Reads a value of a shape. -/
def readValue : (shape : Shape) → List Lexeme → Read (shape.Value × List Lexeme)
  | .text => readScalar Found.asText
  | .texts => readList Found.asText
  | .indices => readList Found.asIndex
  | .size => readScalar (Found.asWord .size)
  | .codec => readCodec
  | .millis => readScalar (Found.asWord .millis)

/-- Reads an entry of a record up to its value, given the fields that are already set. -/
def readEntry (seen : List Field) (c : Config) :
    List Lexeme → Read (Field × Config × List Lexeme)
  | .text key :: rest =>
    match Field.ofKey? key with
    | none => .error (.unknownField key)
    | some field =>
      if field ∈ seen then .error (.duplicateField field)
      else
        match rest with
        | .colon :: rest =>
          (readValue field.shape rest).map fun (value, rest) ↦ (field, c.set field value, rest)
        | _ => .error .malformed
  | _ => .error .malformed

/-- Reads entries after the first, up to the closing brace. There can be no more of them than there
are fields. -/
def readMoreEntries : Nat → List Field → Config → List Lexeme → Read (Config × List Lexeme)
  | _, _, c, .closeRecord :: rest => .ok (c, rest)
  | fuel + 1, seen, c, .comma :: rest => do
    let (field, c, rest) ← readEntry seen c rest
    readMoreEntries fuel (field :: seen) c rest
  | _, _, _, _ => .error .malformed

/-- Reads a record of fields after its opening brace. -/
def readRecord : List Lexeme → Read (Config × List Lexeme)
  | .closeRecord :: rest => .ok ({}, rest)
  | rest => do
    let (field, c, rest) ← readEntry [] {} rest
    readMoreEntries Field.all.length [field] c rest

/-- Reads the values of fields in order, up to the closing bracket. -/
def readPositional (isFirst : Bool) (c : Config) :
    List Field → List Lexeme → Read (Config × List Lexeme)
  | _, .closeList :: rest => .ok (c, rest)
  | field :: fields, ls => do
    let ls ← if isFirst then .ok ls
      else match ls with
        | .comma :: rest => .ok rest
        | _ => .error .malformed
    let (value, rest) ← readValue field.shape ls
    readPositional false (c.set field value) fields rest
  | [], _ => .error .malformed

/-- Reads a configuration. -/
def readConfig : List Lexeme → Read (Config × List Lexeme)
  | .openRecord :: rest => readRecord rest
  | .openList :: rest => readPositional true {} Field.all rest
  | l :: _ =>
    match Found.ofLexeme? l with
    | some found => .error (.wrongKind found .config)
    | none => .error .malformed
  | [] => .error .malformed

/-- Reads all of a source; nothing may be left over. -/
def readWhole {α : Type} (read : List Lexeme → Read (α × List Lexeme)) (source : String) :
    Read α :=
  match read (Json.lexemes source.toList) with
  | .ok (value, []) => .ok value
  | .ok (_, _ :: _) => .error .malformed
  | .error fault => .error fault

/-- The configuration in a JSON text. -/
def ofJson (source : String) : Except Failure Config :=
  match readWhole readConfig source with
  | .error fault => .error (.config fault.message)
  | .ok c => c.validate.map fun () ↦ c

/-- The codec in a JSON text. -/
def codecOfJson (source : String) : Read Codec := readWhole readCodec source

/-- The value of a field in a document. -/
def jsonValue : (shape : Shape) → shape.Value → Json.Value
  | .text, s => .scalar (.text s)
  | .texts, items => .list (items.map .text)
  | .indices, items => .list (items.map fun n ↦ .integer n.toInt)
  | .size, n => .scalar (.integer n.toNat)
  | .codec, codec => .scalar (.text codec.id)
  | .millis, n => .scalar (.integer n.toNat)

/-- Some fields of a configuration as a document, in the order given. -/
def toDocument (c : Config) (fields : List Field) : Json.Document :=
  fields.map fun field ↦ (field.key, jsonValue field.shape (c.get field))

/-- A configuration as a JSON text with all fields, one on each line. -/
def toJson (c : Config) : String :=
  String.ofList ((c.toDocument Field.all).print .pretty)

end Sidecar.Config
