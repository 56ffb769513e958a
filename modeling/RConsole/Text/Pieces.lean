namespace RConsole

def isBlank (c : Char) : Bool :=
  let n := c.toNat
  (9 ≤ n && n ≤ 13) || n == 0x20 || n == 0x85 || n == 0xA0 || n == 0x1680 ||
    (0x2000 ≤ n && n ≤ 0x200A) || n == 0x2028 || n == 0x2029 || n == 0x202F ||
    n == 0x205F || n == 0x3000

def trim (cs : List Char) : List Char :=
  ((cs.dropWhile isBlank).reverse.dropWhile isBlank).reverse

def pieces {α : Type} (isBreak : α → Bool) : List α → List (List α)
  | [] => [[]]
  | c :: cs =>
    if isBreak c then [] :: pieces isBreak cs
    else match pieces isBreak cs with
      | [] => [[c]]
      | w :: ws => (c :: w) :: ws

theorem pieces_ne_nil {α : Type} (isBreak : α → Bool) (cs : List α) : pieces isBreak cs ≠ [] := by
  cases cs with
  | nil => simp [pieces]
  | cons c cs =>
    unfold pieces
    split
    · simp
    · split <;> simp

def splitLines (cs : List Char) : List (List Char) := pieces (· == '\n') cs

def dropReturn (line : List Char) : List Char :=
  if line.getLast? = some '\r' then line.dropLast else line

def fileLines (cs : List Char) : List (List Char) :=
  let ls := splitLines cs
  let ended := ls.dropLast.map dropReturn
  match ls.getLast? with
  | some (c :: r) => ended ++ [c :: r]
  | _ => ended

def joinLines (ls : List (List Char)) : List Char := ['\n'].intercalate ls

def returnNewlines (afterReturn : Bool) : List Char → List Char
  | [] => []
  | c :: cs =>
    if c = '\n' ∧ afterReturn = false then '\r' :: '\n' :: returnNewlines false cs
    else c :: returnNewlines (c == '\r') cs

def rawText (cs : List Char) : List Char :=
  let out := returnNewlines false cs
  if out = [] ∨ out.getLast? = some '\n' then out else out ++ ['\r', '\n']

end RConsole
