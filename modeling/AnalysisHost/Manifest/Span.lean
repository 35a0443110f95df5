/-!
# Where a value stands in a text

An error about a value points at it by looking for the value, in double quotes, in the text that the
manifest was read from. Occurrences are counted from the left and do not overlap: the search goes on
behind an occurrence. Places and lengths are in bytes of the text's UTF-8 form.
-/

namespace AnalysisHost

/-- A stretch of a text, in bytes. -/
structure Span where
  offset : Nat
  length : Nat
  deriving DecidableEq, Repr

namespace Span

/-- The byte offsets of the occurrences of `needle`. The characters that an occurrence covers are
passed over: `covered` of them are still to come. -/
def occurrences (needle : List Char) (covered offset : Nat) : List Char → List Nat
  | [] => []
  | c :: cs =>
    match covered with
    | covered + 1 => occurrences needle covered (offset + c.utf8Size) cs
    | 0 =>
      if needle.isPrefixOf (c :: cs) then
        offset :: occurrences needle (needle.length - 1) (offset + c.utf8Size) cs
      else occurrences needle 0 (offset + c.utf8Size) cs

/-- A value in double quotes. -/
def quoted (value : String) : List Char := '"' :: value.toList ++ ['"']

/-- The stretch that a value covers at its `n`-th occurrence in quotes, the quotes left out.
Counting begins with zero. -/
def ofQuoted? (text value : String) (n : Nat) : Option Span :=
  (occurrences (quoted value) 0 0 text.toList)[n]?.map fun offset =>
    ⟨offset + 1, value.utf8ByteSize⟩

end Span

end AnalysisHost
