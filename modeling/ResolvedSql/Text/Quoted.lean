namespace ResolvedSql.Text

def double (q : Char) : List Char → List Char
  | [] => []
  | c :: r => if c = q then q :: q :: double q r else c :: double q r

def quoted (q : Char) (s : String) : String :=
  String.ofList (q :: (double q s.toList ++ [q]))

/-- Reads a doubled text up to the quote that ends it: the text, and what follows that quote. -/
def undouble (q : Char) : List Char → Option (List Char × List Char)
  | [] => none
  | [c] => if c = q then some ([], []) else none
  | c :: d :: r =>
    if c = q then
      if d = q then (undouble q r).map fun (s, rest) => (q :: s, rest) else some ([], d :: r)
    else (undouble q (d :: r)).map fun (s, rest) => (c :: s, rest)

def unquote (q : Char) : List Char → Option (List Char × List Char)
  | [] => none
  | c :: r => if c = q then undouble q r else none

def separated (sep : String) : List String → String
  | [] => ""
  | [x] => x
  | x :: y :: r => x ++ sep ++ separated sep (y :: r)

def commas (xs : List String) : String := separated "," xs

def startsWith (front s : String) : Bool := front.toList.isPrefixOf s.toList

def asciiUpper (s : String) : String := String.ofList (s.toList.map Char.toUpper)

end ResolvedSql.Text
