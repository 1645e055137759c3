import SchemaCompiler.Yaml.Compose

/-!
# Merge keys

A map with the key `<<` takes over the entries of the map under that key, or of each map of the list
under it, except for keys that it has already. `Tree.ofYaml` reads a YAML text into a tree and
carries out its merges.

The entry with the key `<<` gives its place to the last entry of the map, and entries that are
taken over go to the end. A merge key that is itself taken over is an ordinary key. Merges are
carried out from the root inwards, of the parts of a collection the last one first.
-/

namespace SchemaCompiler.Yaml

/-- The key under which a map names what it takes over. -/
def mergeKey : String := "<<"

/-- Whether a tree is the merge key. -/
def isMergeKey : Tree → Bool
  | .text s => s == mergeKey
  | _ => false

/-- Takes the merge entry out of a map: what stood under it, and the other entries, the last of
them in its place. -/
def extractMerge (entries : List (Tree × Tree)) : Option (Tree × List (Tree × Tree)) :=
  match entries.findIdx? (isMergeKey ·.1), entries.getLast? with
  | some i, some last =>
    (entries[i]?).map fun entry =>
      let front := entries.dropLast
      (entry.2, if i < front.length then front.set i last else front)
  | _, _ => none

/-- Takes over the entries of another map whose keys are new. -/
def takeOver (entries others : List (Tree × Tree)) : List (Tree × Tree) :=
  others.foldl (fun entries other =>
    if entries.any (sameKey ·.1 other.1) then entries else entries ++ [other]) entries

/-- Takes over the entries of a list of maps in order. -/
def takeOverAll (entries : List (Tree × Tree)) : List Tree → Except Fault (List (Tree × Tree))
  | [] => .ok entries
  | .map others :: items => takeOverAll (takeOver entries others) items
  | .list _ :: _ => .error .mergedItemList
  | .tagged _ _ :: _ => .error .mergedTag
  | _ :: _ => .error .mergedItemScalar

/-- The entries of a map after its own merge. -/
def mergeEntries (entries : List (Tree × Tree)) : Except Fault (List (Tree × Tree)) :=
  match extractMerge entries with
  | none => .ok entries
  | some (.map others, rest) => .ok (takeOver rest others)
  | some (.list items, rest) => takeOverAll rest items
  | some (.tagged _ _, _) => .error .mergedTag
  | some (_, _) => .error .mergedScalar

/-- Carries out the merges of the parts of a collection, the last one first. -/
def mergeParts {α : Type} (merge : α → Except Fault α) : List α → Except Fault (List α)
  | [] => .ok []
  | part :: parts => do
    let parts ← mergeParts merge parts
    let part ← merge part
    .ok (part :: parts)

/-- Carries out the merges of a tree. The bound is on its height. -/
def mergeTree : Nat → Tree → Except Fault Tree
  | 0, tree => .ok tree
  | bound + 1, tree =>
    match tree with
    | .map entries => do
      let entries ← mergeEntries entries
      let entries ← mergeParts (fun entry => do .ok (entry.1, ← mergeTree bound entry.2)) entries
      .ok (.map entries)
    | .list items => do .ok (.list (← mergeParts (mergeTree bound) items))
    | .tagged tag value => do .ok (.tagged tag (← mergeTree bound value))
    | other => .ok other

mutual

/-- The height of a tree. -/
def height : Tree → Nat
  | .list items => heightItems items + 1
  | .map entries => heightEntries entries + 1
  | .tagged _ value => height value + 1
  | _ => 1

/-- The greatest height of a list of trees. -/
def heightItems : List Tree → Nat
  | [] => 0
  | item :: items => max (height item) (heightItems items)

/-- The greatest height of the values of entries. -/
def heightEntries : List (Tree × Tree) → Nat
  | [] => 0
  | (_, value) :: entries => max (height value) (heightEntries entries)

end

end SchemaCompiler.Yaml

namespace SchemaCompiler

/-- The tree of a YAML text, with its merges carried out. -/
def Tree.ofYaml (source : String) : Except Yaml.Fault Tree := do
  let tree ← Yaml.treeOfScript (.ofText source)
  Yaml.mergeTree (Yaml.height tree) tree

end SchemaCompiler
