import DeterministicExchange.Codec.Bytes

/-!
# Digests

A digest folds 64-bit words into one word, by exclusive or and multiplication modulo
`2 ^ 64`. Wider values enter as big-endian lanes.
-/

namespace DeterministicExchange.Codec

open Machine

def wrapping (n : ℕ) : U64 := ⟨n % 2 ^ 64, Nat.mod_lt _ (Nat.two_pow_pos 64)⟩

def digestBasis : U64 := wrapping 0xcbf29ce484222325

def mix (digest value : U64) : U64 := wrapping ((digest.val ^^^ value.val) * 0x00000100000001b3)

def rotateLeft (a : U64) (k : ℕ) : U64 := wrapping (a.val <<< k ||| a.val >>> (64 - k))

def beHigh (bytes : Bytes) : U64 := decodeUnsigned 64 (bytes.take 8)

def beLow (bytes : Bytes) : U64 := decodeUnsigned 64 (bytes.drop 8)

/-- The digest of a sequence of words. -/
def digestOf (words : List U64) : U64 := words.foldl mix digestBasis

/-- Mixing the words of every item in turn. -/
theorem foldl_mix_flatMap {α : Type} (words : α → List U64) (items : List α) (digest : U64) :
    (items.flatMap words).foldl mix digest =
      items.foldl (fun digest item ↦ (words item).foldl mix digest) digest := by
  rw [List.flatMap_def, List.foldl_flatten, List.foldl_map]

end DeterministicExchange.Codec
