/-!
# Tries

Alternatives that are all literals are laid out as a trie. An alternative that ends at a
node comes before those that reach the node later and go on from it, so the links of a node
are kept in chunks: a new chunk begins wherever an alternative ends.
-/

namespace Rehearsal

namespace Regex

/-- A node: the chunks before the ends of alternatives, the latest first, and the chunk under
way. A link is a byte and the number of the node it leads to. -/
structure TrieNode where
  closed : List (List (Nat × Nat))
  active : List (Nat × Nat)
  deriving Repr, Inhabited

namespace TrieNode

def leaf : TrieNode := ⟨[], []⟩

def chunks (node : TrieNode) : List (List (Nat × Nat)) := node.active :: node.closed

def isLeaf (node : TrieNode) : Bool := node.chunks.all List.isEmpty

/-- Ends an alternative here. At a node that leads nowhere a second end changes nothing. -/
def close (node : TrieNode) : TrieNode :=
  if node.isLeaf && !node.closed.isEmpty then node
  else ⟨node.active :: node.closed, []⟩

end TrieNode

abbrev Trie := Array TrieNode

namespace Trie

def insertAt (trie : Trie) (place : Nat) : List Nat → Trie
  | [] => trie.modify place TrieNode.close
  | byte :: rest =>
    match ((trie.getD place .leaf).active.find? fun link => link.1 == byte) with
    | some (_, next) => insertAt trie next rest
    | none =>
      let next := trie.size
      insertAt ((trie.push .leaf).modify place fun node =>
        { node with active := (byte, next) :: node.active }) next rest

def ofAlternatives (alternatives : List (List Nat)) : Trie :=
  alternatives.foldl (fun trie bytes => insertAt trie 0 bytes) #[.leaf]

end Trie

end Regex

end Rehearsal
