/-!
# Alphabets

An automaton can be written over any symbols that can be compared and hashed.
Some constructions need more: to accept any symbol whatever they draw an edge
for each one, and so need to be able to list them all.
-/

namespace Acceptor

universe u

/-- A type of symbols that can all be listed. -/
class Alphabet (σ : Type u) where
  /-- Every symbol, each once. -/
  symbols : List σ
  /-- No symbol is missing. -/
  mem_symbols : ∀ symbol : σ, symbol ∈ symbols
  /-- No symbol is listed twice. -/
  nodup_symbols : symbols.Nodup

/-- A unit of text in the 16-bit encoding form, the symbols of a pattern. -/
abbrev CodeUnit := UInt16

/-- The truth values, false first. -/
instance : Alphabet Bool where
  symbols := [false, true]
  mem_symbols := by decide
  nodup_symbols := by decide

/-- The numbers below a bound, in a type of words of which the bound is the size. -/
theorem mem_map_range {σ : Type u} {size : Nat} {ofNat : Nat → σ} {toNat : σ → Nat}
    (below : ∀ symbol, toNat symbol < size) (inverse : ∀ symbol, ofNat (toNat symbol) = symbol)
    (symbol : σ) :
    symbol ∈ (List.range size).map ofNat :=
  List.mem_map.mpr ⟨toNat symbol, List.mem_range.mpr (below symbol), inverse symbol⟩

theorem nodup_map_range {σ : Type u} {size : Nat} {ofNat : Nat → σ} {toNat : σ → Nat}
    (inverse : ∀ number < size, toNat (ofNat number) = number) :
    ((List.range size).map ofNat).Nodup := by
  rw [List.Nodup, List.pairwise_map]
  refine List.Pairwise.imp_of_mem ?_ List.nodup_range
  intro first second firstMember secondMember different same
  apply different
  rw [← inverse first (List.mem_range.mp firstMember),
    ← inverse second (List.mem_range.mp secondMember), same]

/-- The 8-bit words in ascending order. -/
instance : Alphabet UInt8 where
  symbols := (List.range UInt8.size).map UInt8.ofNat
  mem_symbols := mem_map_range UInt8.toNat_lt (fun _ => UInt8.ofNat_toNat)
  nodup_symbols := nodup_map_range fun _ below => UInt8.toNat_ofNat_of_lt below

/-- The 16-bit words in ascending order. -/
instance : Alphabet UInt16 where
  symbols := (List.range UInt16.size).map UInt16.ofNat
  mem_symbols := mem_map_range UInt16.toNat_lt (fun _ => UInt16.ofNat_toNat)
  nodup_symbols := nodup_map_range fun _ below => UInt16.toNat_ofNat_of_lt below

end Acceptor
