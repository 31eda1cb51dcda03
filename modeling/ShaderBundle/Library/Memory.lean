import ShaderBundle.Library.Basic

/-! Modules held in memory. -/
namespace ShaderBundle

structure MemoryStore where
  sources : List (String × String) := []
  /-- Modules that are refused, each with the kind and the text of the refusal. -/
  refusals : List (String × String × String) := []

namespace MemoryStore

def replace (id source : String) : List (String × String) → List (String × String)
  | [] => [(id, source)]
  | entry :: rest =>
    if entry.1 = id then (id, source) :: rest else entry :: replace id source rest

/-- Puts a module under an id; a module that was there gives way. -/
def add (store : MemoryStore) (id source : String) : MemoryStore :=
  { store with sources := replace id source store.sources }

def fetch (store : MemoryStore) (id : String) : Except FetchFault String :=
  match store.refusals.lookup id with
  | some (kind, message) => .error (.refused kind message)
  | none =>
    match store.sources.lookup id with
    | some source => .ok (Text.unifyNewlines source)
    | none => .error (.unknownModule id)

def library (store : MemoryStore) : Library where
  fetch := store.fetch
  isBare path := .ok (Path.isBare path)
  join := Path.join
  capacity := store.sources.length

end MemoryStore

end ShaderBundle
