import CacheServer.Config.Basic
import CacheServer.Text.Utf8
import CacheServer.Toml.Parser

/-!
# Settings from a file

A file of settings is a TOML document with the sections `native`, `http` and `storage`. What it
does not mention keeps its default, and what it mentions beyond the settings is skipped. A section
is a table, or an array with the settings in their order; a date, which is neither, sets nothing.
A setting of the wrong type or out of range makes the whole file unusable.
-/

namespace CacheServer.Config

open Toml

/-! ## Values of settings -/

/-- Reads a flag. -/
def boolean? : Value → Option Bool
  | .boolean b => some b
  | _ => none

/-- Reads a number below a bound. -/
def natural? (bound : Nat) : Value → Option Nat
  | .integer n => if 0 ≤ n ∧ n < bound then some n.toNat else none
  | _ => none

/-- Reads a port. -/
def port? (v : Value) : Option UInt16 := (natural? (Nat.pow 2 16) v).map UInt16.ofNat

/-- Reads a size, a time or a count. -/
def count? (v : Value) : Option UInt64 := (natural? (Nat.pow 2 64) v).map UInt64.ofNat

/-- Reads the name of a file. -/
def text? : Value → Option String
  | .string s => some s
  | _ => none

/-- Whether a value is an array or a table with nothing in it. -/
def isVoid : Value → Bool
  | .array [] | .table _ [] | .tables [] => true
  | _ => false

/-- Reads a verbosity: its name, or a table whose only entry has this name and holds nothing. -/
def verbosity? : Value → Option Verbosity
  | .string name => Verbosity.ofName? name
  | .table _ [(name, v)] => if isVoid v then Verbosity.ofName? name else none
  | _ => none

/-! ## Sections -/

/-- The settings of a section whose settings have the given names, in this order. -/
def section? (names : List String) : Value → Option Entries
  | .table _ entries => some entries
  | .array elements => some (names.zip elements)
  | .tables elements => some (names.zip (elements.map (.table .header)))
  | .dateTime => some []
  | _ => none

/-- Reads one setting of a section, or leaves the default. -/
def setting? {α : Type} (entries : Entries) (name : String) (read : Value → Option α)
    (default : α) : Option α :=
  match entries.lookup name with
  | none => some default
  | some v => read v

/-- The settings of an interface, in their order. -/
def interfaceNames : List String :=
  ["activate", "port", "on_localhost", "tls", "cert_file", "key_file"]

/-- Reads the settings of an interface. -/
def interface? (entries : Entries) (i : Interface) : Option Interface := do
  let activate ← setting? entries "activate" boolean? i.activate
  let port ← setting? entries "port" port? i.port
  let onLocalhost ← setting? entries "on_localhost" boolean? i.onLocalhost
  let tls ← setting? entries "tls" boolean? i.tls
  let certFile ← setting? entries "cert_file" text? i.certFile
  let keyFile ← setting? entries "key_file" text? i.keyFile
  return ⟨activate, port, onLocalhost, tls, certFile, keyFile⟩

/-- Reads the section of the native interface. -/
def native? (c : Config) (v : Value) : Option (Interface × UInt64) := do
  let entries ← section? (interfaceNames ++ ["max_message_size"]) v
  let interface ← interface? entries c.native
  let size ← setting? entries "max_message_size" count? c.maxMessageSize
  return (interface, size)

/-- Reads the section of the gateway. -/
def http? (c : Config) (v : Value) : Option Interface := do
  let entries ← section? interfaceNames v
  interface? entries c.http

/-- Reads the section of the store. -/
def storage? (c : Config) (v : Value) : Option UInt64 := do
  let entries ← section? ["sweep_interval_ms"] v
  setting? entries "sweep_interval_ms" count? c.sweepIntervalMs

/-- The settings that a document gives. -/
def ofDocument? (document : Entries) : Option Config := do
  let c := standard
  let verbosity ← setting? document "verbosity" verbosity? c.verbosity
  let workerThreads ← setting? document "worker_threads" count? c.workerThreads
  let (native, size) ← setting? document "native" (native? c) (c.native, c.maxMessageSize)
  let http ← setting? document "http" (http? c) c.http
  let sweepIntervalMs ← setting? document "storage" (storage? c) c.sweepIntervalMs
  return ⟨verbosity, workerThreads, native, size, http, sweepIntervalMs⟩

/-! ## Files -/

/-- The failure of a file that cannot be read. -/
def unreadable (e : IoError) : Failure := .config ("Failed to read config file: " ++ e.message)

/-- The settings in a file; `contents` is missing if there is no such file. -/
def ofFile (contents : Option Bytes) : Except Failure Config :=
  match contents with
  | none => .error (unreadable .notFound)
  | some bytes =>
    match Text.decode? bytes with
    | none => .error (unreadable .notText)
    | some text =>
      match (Toml.parse? text).bind ofDocument? with
      | none => .error (.config "Failed to parse config")
      | some c => .ok c

end CacheServer.Config
