import Typeahead.Suggestions

/-!
# The built-in sample

Free text with mentions, which begin with `@`, and labels, which begin with `#`.
-/

namespace Typeahead.Sample

/-- The grammar of the sample. -/
def grammar : String := "
<SYNTAX>           ::= <composition>
<composition>      ::= <word> <BREAK> <composition> | <word> <BREAK> | <word>
<word>             ::= <CHARS> | <assignee> | <tag>
<assignee>         ::= \"@\" <CHARS> | \"@\"
<tag>              ::= \"#\" <CHARS> | \"#\"
<CHARS>            ::= <CHAR> <CHARS> | <CHAR>
<CHAR>             ::= <LETTER> | <DIGIT> | \"_\" | \"-\"
<LETTER>           ::= <UPPER_LETTER> | <LOWER_LETTER>
" ++
  "<UPPER_LETTER>     ::= \"A\" | \"B\" | \"C\" | \"D\" | \"E\" | \"F\" | \"G\" | \"H\" | " ++
  "\"I\" | \"J\" | \"K\" | \"L\" | \"M\" | \"N\" | \"O\" | \"P\" | \"Q\" | " ++
  "\"R\" | \"S\" | \"T\" | \"U\" | \"V\" | \"W\" | \"X\" | \"Y\" | \"Z\"
" ++
  "<LOWER_LETTER>     ::= \"a\" | \"b\" | \"c\" | \"d\" | \"e\" | \"f\" | \"g\" | \"h\" | " ++
  "\"i\" | \"j\" | \"k\" | \"l\" | \"m\" | \"n\" | \"o\" | \"p\" | \"q\" | " ++
  "\"r\" | \"s\" | \"t\" | \"u\" | \"v\" | \"w\" | \"x\" | \"y\" | \"z\"
" ++
  "<DIGIT>            ::= \"0\" | \"1\" | \"2\" | \"3\" | \"4\" | \"5\" | " ++
  "\"6\" | \"7\" | \"8\" | \"9\"
<BREAK>            ::= <BREAK_SYMBOL> <BREAK> | <BREAK_SYMBOL>
<BREAK_SYMBOL>     ::= \",\" | \".\" | \";\" | \" \"
"

/-- A text of the sample grammar. -/
def text : String := "Tell @john to play #with-the-beatles"

/-- Who can be mentioned. -/
def assignees : List String := ["@john", "@paul", "@george", "@ringo"]

/-- The labels. -/
def tags : List String := [
  "#please-please-me",
  "#with-the-beatles",
  "#a-hard-days-night",
  "#beatles-for-sale",
  "#help",
  "#rubber-soul",
  "#revolver",
  "#sgt-peppers-lonely-hearts-club-band",
  "#magical-mystery-tour",
  "#the-beatles",
  "#the-white-album",
  "#yellow-submarine",
  "#abbey-road",
  "#let-it-be"]

/-- The suggestions of the sample. -/
def suggestions : Suggestions := (Suggestions.empty.set "assignee" assignees).set "tag" tags

end Typeahead.Sample
