/-!
# White space

The characters with the Unicode property White_Space, and trimming by that property.
-/

namespace DotChain.Text

/-- Whether a character is white space. -/
def isBlank (c : Char) : Bool :=
  let code := c.toNat
  (0x09 ≤ code && code ≤ 0x0d) || code == 0x20 || code == 0x85 || code == 0xa0 || code == 0x1680
    || (0x2000 ≤ code && code ≤ 0x200a) || code == 0x2028 || code == 0x2029 || code == 0x202f
    || code == 0x205f || code == 0x3000

/-- A text without the white space at its end. -/
def trimEnd (text : List Char) : List Char := (text.reverse.dropWhile isBlank).reverse

/-- A text without the white space at its two ends. -/
def trim (text : List Char) : List Char := trimEnd (text.dropWhile isBlank)

theorem trimEnd_append_blank (text blank : List Char) (all : ∀ c ∈ blank, isBlank c = true) :
    trimEnd (text ++ blank) = trimEnd text := by
  have gone : ∀ c ∈ blank.reverse, isBlank c = true := fun c member => all c (List.mem_reverse.mp member)
  simp only [trimEnd, List.reverse_append, List.dropWhile_append_of_pos gone]

theorem trimEnd_append_visible (text : List Char) {c : Char} (visible : isBlank c = false) :
    trimEnd (text ++ [c]) = text ++ [c] := by
  rw [trimEnd, List.reverse_concat, List.dropWhile_cons_of_neg (by simp [visible]), List.reverse_cons,
    List.reverse_reverse]

end DotChain.Text
