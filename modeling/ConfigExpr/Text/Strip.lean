/-!
Blank characters and stripping. A blank is any of the 25 characters that Unicode gives the property
White_Space. Stripping takes a class of characters off the ends of a text and leaves the middle as
it is.
-/
namespace ConfigExpr.Text

def isBlank (c : Char) : Bool :=
  let n := c.toNat
  (9 ≤ n && n ≤ 13) || n == 0x20 || n == 0x85 || n == 0xA0 || n == 0x1680 ||
    (0x2000 ≤ n && n ≤ 0x200A) || n == 0x2028 || n == 0x2029 || n == 0x202F || n == 0x205F ||
    n == 0x3000

def stripStart (p : Char → Bool) (text : List Char) : List Char :=
  text.dropWhile p

def stripEnd (p : Char → Bool) (text : List Char) : List Char :=
  (text.reverse.dropWhile p).reverse

/-- The text without the longest run of `p` characters at either end. -/
def strip (p : Char → Bool) (text : List Char) : List Char :=
  stripEnd p (stripStart p text)

theorem strip_sublist (p : Char → Bool) (text : List Char) : (strip p text).Sublist text := by
  have ending : (stripEnd p (stripStart p text)).Sublist (stripStart p text) := by
    rw [← List.reverse_sublist, stripEnd, List.reverse_reverse]
    exact List.dropWhile_sublist p
  exact ending.trans (List.dropWhile_sublist p)

end ConfigExpr.Text
