import ComponentUsage.Disk.Fault
import ComponentUsage.Path.Basic
import ComponentUsage.Table
import ComponentUsage.Text.Blank
/-!
# Where a path is read

A relative path is read from a working directory, and a path may name home
directories and variables.
-/

namespace ComponentUsage

/-- What relative paths and variables in paths refer to. -/
structure Place where
  workingDirectory : String
  environment : Table String
  /-- The home directories of users, by name. -/
  homes : Table String := .empty
  /-- The home directory that the system has for the reader, if it knows the reader. -/
  ownHome : Option String := none

namespace Place

/-- The absolute normal form of a path. -/
def absolute (here : Place) (p : String) : String :=
  Path.normalize (Path.join here.workingDirectory p)

/-! ## Home directory and variables -/

/-- The home directory of a user. If no name is given it is the reader's own: the one that
the environment names, and else the one that the system has. -/
def homeOf (here : Place) (user : String) : Option String :=
  if user = "" then (here.environment.get? "HOME").or here.ownHome else here.homes.get? user

/-- A path with `~` or `~user` in front replaced by a home directory. A user who is
not known has none, and a name that holds a zero character is no user's. -/
def expandHome (here : Place) (p : String) : Except Fault String :=
  match p.toList with
  | '~' :: cs =>
    let user := cs.takeWhile (· ≠ '/')
    if user.contains (Char.ofNat 0) then .error .zeroInPath
    else
      match here.homeOf (String.ofList user) with
      | none => .ok p
      | some home =>
        let stripped := (home.toList.reverse.dropWhile (· == '/')).reverse
        let out := String.ofList (stripped ++ cs.dropWhile (· ≠ '/'))
        .ok (if out = "" then "/" else out)
  | _ => .ok p

/-- The characters of a variable's name. -/
def isNameChar (c : Char) : Bool := c.isAlphanum || c == '_'

/-- What replaces a variable: its value, or the reference itself if there is no
such variable. -/
def valueOf (here : Place) (name reference : List Char) : List Char :=
  match here.environment.get? (String.ofList name) with
  | some v => v.toList
  | none => reference

/-- A name between braces that follow a dollar sign, and what comes after. -/
def bracedName? : List Char → Option (List Char × List Char)
  | [] => none
  | '\x7d' :: cs => some ([], cs)
  | c :: cs => (bracedName? cs).map fun (name, rest) => (c :: name, rest)

theorem length_bracedName? {cs name rest : List Char} (h : bracedName? cs = some (name, rest)) :
    rest.length < cs.length := by
  induction cs generalizing name rest with
  | nil => simp [bracedName?] at h
  | cons c cs ih =>
    by_cases hc : c = '\x7d'
    · subst hc
      simp only [bracedName?, Option.some.injEq, Prod.mk.injEq] at h
      simp [h.2]
    · rw [bracedName?] at h
      · obtain ⟨⟨n, r⟩, hr, he⟩ := Option.map_eq_some_iff.1 h
        simp only [Prod.mk.injEq] at he
        have := ih hr
        simp only [List.length_cons, ← he.2]
        omega
      · exact hc

/-- A text with the variables in it replaced. A replacement is not read again. -/
def expandChars (here : Place) (cs : List Char) : List Char :=
  match cs with
  | [] => []
  | '$' :: '\x7b' :: rest =>
    match _h : bracedName? rest with
    | some (name, after) =>
      here.valueOf name (('$' :: '\x7b' :: name) ++ ['\x7d']) ++ here.expandChars after
    | none => '$' :: here.expandChars ('\x7b' :: rest)
  | '$' :: rest =>
    let name := rest.takeWhile isNameChar
    if name.isEmpty then '$' :: here.expandChars rest
    else here.valueOf name ('$' :: name) ++ here.expandChars (rest.dropWhile isNameChar)
  | c :: rest => c :: here.expandChars rest
termination_by cs.length
decreasing_by
  all_goals simp only [List.length_cons]
  · have := length_bracedName? _h
    omega
  · omega
  · omega
  · have := (List.dropWhile_suffix isNameChar (l := rest)).length_le
    omega
  · omega

/-- The absolute path that a setting means; `fallback` if it is blank. -/
def resolve (here : Place) (setting fallback : String) : Except Fault String := do
  let p := Text.trim setting
  let p ← here.expandHome (if p = "" then fallback else p)
  return here.absolute (String.ofList (here.expandChars p.toList))

end Place
end ComponentUsage
