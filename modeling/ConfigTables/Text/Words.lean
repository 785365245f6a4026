import ConfigTables.Text.Letter

/-!
    The words of a name, however it is spelled: `itemReward`, `ItemReward`, `item_reward` and
    `item reward` all have the words `item` and `reward`.

    Characters that are neither letters nor numbers separate words. Inside a run of letters and
    numbers a word ends before a capital that follows a small letter, and before the last capital of
    a row of capitals that a small letter follows (`XMLHttp` is `XML` and `Http`). Digits and letters
    without case belong to the word they stand in and leave the case of the letter before them in
    force. -/

namespace ConfigTables.Text

/-- The case of the last cased letter of the word read so far. -/
inductive WordCase where | unknown | lower | upper
  deriving DecidableEq

/-- The case in force after a character. -/
def WordCase.after (before : WordCase) (c : Char) : WordCase :=
  if isLower c then .lower else if isUpper c then .upper else before

/-- The words of a run of letters and numbers; `read` is the current word so far, reversed. -/
def humps (case : WordCase) (read : List Char) : List Char → List (List Char)
  | [] => []
  | [c] => [(c :: read).reverse]
  | c :: next :: rest =>
    if case.after c = .lower && isUpper next then
      (c :: read).reverse :: humps .unknown [] (next :: rest)
    else if case = .upper && isUpper c && isLower next then
      read.reverse :: humps .unknown [c] (next :: rest)
    else
      humps (case.after c) (c :: read) (next :: rest)

/-- The words of a name, in order. -/
def nameWords (name : List Char) : List (List Char) :=
  (name.splitOnP (!isAlphanumeric ·)).flatMap (humps .unknown [])

/-- A word in capitals. -/
def upperWord (word : List Char) : List Char := word.flatMap upper

/-- A word in small letters; a sigma that ends it takes its final form. -/
def lowerWord : List Char → List Char
  | [] => []
  | ['Σ'] => ['ς']
  | c :: rest => lower c ++ lowerWord rest

/-- A word with its first letter in capitals and the others small. -/
def capitalWord : List Char → List Char
  | [] => []
  | c :: rest => upper c ++ lowerWord rest

end ConfigTables.Text
