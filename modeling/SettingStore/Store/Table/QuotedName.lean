set_option autoImplicit false

/-! # Quoted names in statements

A name stands in a statement between double quotes, with every quote inside it written twice.
The database reads a statement as tokens: words, quoted names, and other characters that stand for
themselves. A quoted name goes up to the first quote that is not followed by another one. The
module has the writer, the reader, and the one statement that is made with a name from outside,
the one that drops an index.
-/

namespace SettingStore.QuotedName

/-! ## Writing -/

/-- The inside of a quoted name: a quote is written twice. -/
def inside : List Char → List Char
  | [] => []
  | c :: rest => if c = '"' then '"' :: '"' :: inside rest else c :: inside rest

/-- A name in double quotes. -/
def chars (name : List Char) : List Char := '"' :: (inside name ++ ['"'])

/-! ## Reading -/

/-- A token of a statement. -/
inductive Token where
  | word (letters : List Char)
  | name (content : List Char)
  | symbol (c : Char)
  deriving DecidableEq, Repr

/-- Where reading stands: between two tokens, in a word, in a quoted name, or behind a quote in a
quoted name, which ends the name unless it is the first one of two. What was read of the token is
given from its end. -/
inductive Place where
  | between
  | word (read : List Char)
  | quoted (read : List Char)
  | behindQuote (read : List Char)

/-- A character of a word or a number. -/
def isWordChar (c : Char) : Bool := c.isAlphanum || c == '_' || c == '$' || 0x80 ≤ c.toNat

/-- A character between tokens. -/
def isSpace (c : Char) : Bool := [' ', '\t', '\n', '\x0c', '\r'].contains c

/-- What a character begins: the token that it is by itself, if it is one, and where reading stands
behind it. -/
def begins (c : Char) : List Token × Place :=
  if c = '"' then ([], .quoted [])
  else if isSpace c then ([], .between)
  else if isWordChar c then ([], .word [c])
  else ([.symbol c], .between)

/-- The tokens of a text, from a place on; none if the text ends within a quoted name. -/
def tokens? : Place → List Char → Option (List Token)
  | .between, [] => some []
  | .word read, [] => some [.word read.reverse]
  | .quoted _, [] => none
  | .behindQuote read, [] => some [.name read.reverse]
  | .between, c :: rest => (tokens? (begins c).2 rest).map ((begins c).1 ++ ·)
  | .word read, c :: rest =>
      if isWordChar c then tokens? (.word (c :: read)) rest
      else (tokens? (begins c).2 rest).map (.word read.reverse :: (begins c).1 ++ ·)
  | .quoted read, c :: rest =>
      if c = '"' then tokens? (.behindQuote read) rest else tokens? (.quoted (c :: read)) rest
  | .behindQuote read, c :: rest =>
      if c = '"' then tokens? (.quoted ('"' :: read)) rest
      else (tokens? (begins c).2 rest).map (.name read.reverse :: (begins c).1 ++ ·)

/-- Reading the inside of a written name and the quote behind it reads the name. -/
theorem tokens?_inside (read name rest : List Char) :
    tokens? (.quoted read) (inside name ++ '"' :: rest)
      = tokens? (.behindQuote (name.reverse ++ read)) rest := by
  induction name generalizing read with
  | nil => rw [inside, List.nil_append, tokens?, if_pos rfl, List.reverse_nil, List.nil_append]
  | cons c name ih =>
      rw [List.reverse_cons, List.append_assoc, List.singleton_append]
      by_cases hc : c = '"'
      · rw [inside, if_pos hc, List.cons_append, List.cons_append, tokens?, if_pos rfl, tokens?,
          if_pos rfl, ih, hc]
      · rw [inside, if_neg hc, List.cons_append, tokens?, if_neg hc, ih]

/-- Without the quote behind it nothing is read. -/
theorem tokens?_inside_eq_none (read name : List Char) :
    tokens? (.quoted read) (inside name) = none := by
  induction name generalizing read with
  | nil => rfl
  | cons c name ih =>
      by_cases hc : c = '"'
      · rw [inside, if_pos hc, tokens?, if_pos rfl, tokens?, if_pos rfl, ih]
      · rw [inside, if_neg hc, tokens?, if_neg hc, ih]

/-! ## Dropping an index -/

/-- The words before the name in a statement that drops an index. -/
def dropWords : List (List Char) := ["DROP", "INDEX", "IF", "EXISTS"].map String.toList

/-- The statement that drops an index. -/
def dropStatement (name : String) : List Char :=
  dropWords.flatMap (· ++ [' ']) ++ chars name.toList

/-- The name in a statement that drops an index; nothing may follow it. The database reads a
statement up to the first zero character. -/
def dropped? (statement : List Char) : Option String :=
  match tokens? .between (statement.takeWhile (· != '\x00')) with
  | some [.word drop, .word index, .word condition, .word existence, .name name] =>
      if [drop, index, condition, existence] = dropWords then some (String.ofList name) else none
  | _ => none

end SettingStore.QuotedName
