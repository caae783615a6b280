/-!
# LIKE patterns

In a pattern `%` stands for any run of characters, `_` for exactly one, and a backslash makes the
character after it stand for itself.
-/

namespace EntityQuery.Like

/-- Whether some suffix of a text, the text itself and the empty one included, passes a test. -/
def anySuffix (test : List Char → Bool) : List Char → Bool
  | [] => test []
  | c :: text => test (c :: text) || anySuffix test text

/-- Whether a text fits a pattern as a whole. A pattern that ends in a lone backslash fits none. -/
def fits : (pattern text : List Char) → Bool
  | [], text => text.isEmpty
  | '%' :: pattern, text => anySuffix (fits pattern) text
  | '_' :: pattern, text =>
    match text with
    | [] => false
    | _ :: text => fits pattern text
  | '\\' :: [], _ => false
  | '\\' :: p :: pattern, text =>
    match text with
    | [] => false
    | c :: text => p == c && fits pattern text
  | p :: pattern, text =>
    match text with
    | [] => false
    | c :: text => p == c && fits pattern text

/-- Whether a string is like a pattern. -/
def holds (pattern text : String) : Bool :=
  fits pattern.toList text.toList

end EntityQuery.Like
