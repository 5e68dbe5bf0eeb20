/-!
# Names of characters

A search pattern may ask for a character by its name. Which names there are is known by the
platform, in the version of the character database that it comes with: `CharNames` stands for what
it knows, and whatever is said about patterns is said for all of it. `CharNames.ascii` knows the
printable characters of ASCII; the program runs with these.
-/

namespace ActionItems

/-- What is known of the names of characters. -/
class CharNames where
  /-- The character of a name. -/
  named? : String → Option Char

namespace CharNames

/-- No character has a name. -/
@[reducible] def none : CharNames := ⟨fun _ => .none⟩

/-- The printable characters of ASCII that are no letters, with their names. -/
def asciiMarks : List (Char × String) := [
  (' ', "SPACE"), ('!', "EXCLAMATION MARK"), ('"', "QUOTATION MARK"), ('#', "NUMBER SIGN"),
  ('$', "DOLLAR SIGN"), ('%', "PERCENT SIGN"), ('&', "AMPERSAND"), ('\'', "APOSTROPHE"),
  ('(', "LEFT PARENTHESIS"), (')', "RIGHT PARENTHESIS"), ('*', "ASTERISK"), ('+', "PLUS SIGN"),
  (',', "COMMA"), ('-', "HYPHEN-MINUS"), ('.', "FULL STOP"), ('/', "SOLIDUS"), ('0', "DIGIT ZERO"),
  ('1', "DIGIT ONE"), ('2', "DIGIT TWO"), ('3', "DIGIT THREE"), ('4', "DIGIT FOUR"),
  ('5', "DIGIT FIVE"), ('6', "DIGIT SIX"), ('7', "DIGIT SEVEN"), ('8', "DIGIT EIGHT"),
  ('9', "DIGIT NINE"), (':', "COLON"), (';', "SEMICOLON"), ('<', "LESS-THAN SIGN"),
  ('=', "EQUALS SIGN"), ('>', "GREATER-THAN SIGN"), ('?', "QUESTION MARK"), ('@', "COMMERCIAL AT"),
  ('[', "LEFT SQUARE BRACKET"), ('\\', "REVERSE SOLIDUS"), (']', "RIGHT SQUARE BRACKET"),
  ('^', "CIRCUMFLEX ACCENT"), ('_', "LOW LINE"), ('`', "GRAVE ACCENT"),
  ('\x7b', "LEFT CURLY BRACKET"), ('|', "VERTICAL LINE"), ('\x7d', "RIGHT CURLY BRACKET"),
  ('~', "TILDE")]

/-- The letters of ASCII with their names. -/
def asciiLetters : List (Char × String) :=
  (List.range 26).flatMap fun n =>
    let capital := Char.ofNat ('A'.toNat + n)
    [(capital, "LATIN CAPITAL LETTER " ++ capital.toString),
      (Char.ofNat ('a'.toNat + n), "LATIN SMALL LETTER " ++ capital.toString)]

/-- The names of the printable characters of ASCII, in letters of any case. -/
@[reducible] def ascii : CharNames where
  named? name :=
    let capitals := name.toUpper
    ((asciiMarks ++ asciiLetters).find? fun e => e.2 == capitals).map Prod.fst

end CharNames

end ActionItems
