import FormulaSheet.Json.Lexeme

namespace FormulaSheet.Json

/-- A JSON value. Members of objects keep their order and may repeat. -/
inductive Tree where
  | word
  | number
  | string (pieces : List Piece)
  | array (items : List Tree)
  | object (members : List (List Piece × Tree))

/-- An array or object that is still open, with what it holds so far, the latest first. -/
inductive Frame where
  | array (items : List Tree)
  | object (members : List (List Piece × Tree)) (key : List Piece)

mutual

def readValue (stack : List Frame) : List Lexeme → Option Tree
  | .word :: ls => readAfter stack .word ls
  | .number :: ls => readAfter stack .number ls
  | .string s :: ls => readAfter stack (.string s) ls
  | .openArray :: .closeArray :: ls => readAfter stack (.array []) ls
  | .openArray :: ls => readValue (.array [] :: stack) ls
  | .openObject :: .closeObject :: ls => readAfter stack (.object []) ls
  | .openObject :: .string key :: .colon :: ls => readValue (.object [] key :: stack) ls
  | _ => none

def readAfter (stack : List Frame) (v : Tree) : List Lexeme → Option Tree
  | [] => if stack.isEmpty then some v else none
  | .comma :: .string key :: .colon :: ls =>
    match stack with
    | .object members k :: stack => readValue (.object ((k, v) :: members) key :: stack) ls
    | _ => none
  | .comma :: ls =>
    match stack with
    | .array items :: stack => readValue (.array (v :: items) :: stack) ls
    | _ => none
  | .closeArray :: ls =>
    match stack with
    | .array items :: stack => readAfter stack (.array (v :: items).reverse) ls
    | _ => none
  | .closeObject :: ls =>
    match stack with
    | .object members k :: stack => readAfter stack (.object ((k, v) :: members).reverse) ls
    | _ => none
  | _ => none

end

def parse (text : String) : Option Tree := do
  let ls ← lex text.toList
  readValue [] ls

def highSurrogate (n : Nat) : Bool := 0xD800 ≤ n && n < 0xDC00

def lowSurrogate (n : Nat) : Bool := 0xDC00 ≤ n && n < 0xE000

/-- The characters of a string literal, after those in `acc`, the latest first. Surrogates have to
come in pairs. -/
def charsFrom (acc : List Char) : List Piece → Option (List Char)
  | [] => some acc.reverse
  | .char c :: ps => charsFrom (c :: acc) ps
  | .unit n :: ps =>
    if highSurrogate n then
      match ps with
      | .unit k :: ps =>
        if lowSurrogate k then
          charsFrom (Char.ofNat (0x10000 + (n - 0xD800) * 0x400 + (k - 0xDC00)) :: acc) ps
        else none
      | _ => none
    else if lowSurrogate n then none
    else charsFrom (Char.ofNat n :: acc) ps

def text? (pieces : List Piece) : Option String := (charsFrom [] pieces).map String.ofList

def members? (members : List (List Piece × Tree)) : Option (List (String × Tree)) :=
  members.mapM fun (key, v) => (text? key).map fun key => (key, v)

def field? (members : List (String × Tree)) (key : String) : Option Tree :=
  match members.filter (·.1 == key) with
  | [(_, v)] => some v
  | _ => none

end FormulaSheet.Json
