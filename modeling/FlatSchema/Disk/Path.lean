/-!
Paths as they are written. A path is read name by name between its slashes; repeated slashes
count as one, and a path that starts with a slash starts at the root.
-/

namespace FlatSchema

/-- The place of a file or directory: the names that lead to it from the root. -/
abbrev Location := List String

namespace Path

/-- The pieces between slashes, empty ones included. -/
def pieces : List Char → List (List Char)
  | [] => [[]]
  | '/' :: rest => [] :: pieces rest
  | character :: rest =>
    match pieces rest with
    | [] => [[character]]
    | piece :: others => (character :: piece) :: others

/-- The names of a path. -/
def names (path : String) : List String :=
  ((pieces path.toList).filter (!·.isEmpty)).map String.ofList

def isAbsolute (path : String) : Bool :=
  path.toList.head? = some '/'

/-- A path that ends in a slash names a directory. -/
def endsInSlash (path : String) : Bool :=
  path.toList.getLast? = some '/'

/-- A path taken from a directory. An absolute path stands for itself. -/
def join (directory path : String) : String :=
  if isAbsolute path then path
  else if directory.isEmpty || endsInSlash directory then directory ++ path
  else directory ++ "/" ++ path

section Join

variable {directory path : String}

theorem join_of_absolute (absolute : isAbsolute path = true) : join directory path = path :=
  if_pos absolute

theorem join_of_directory (relative : isAbsolute path = false)
    (closed : directory = "" ∨ endsInSlash directory = true) :
    join directory path = directory ++ path := by
  have ready : (directory.isEmpty || endsInSlash directory) = true := by
    rw [Bool.or_eq_true, String.isEmpty_iff]
    exact closed
  rw [join, if_neg (by simp [relative]), if_pos ready]

theorem join_of_relative (relative : isAbsolute path = false) (named : directory ≠ "")
    (unclosed : endsInSlash directory = false) :
    join directory path = directory ++ "/" ++ path := by
  have unready : ¬ (directory.isEmpty || endsInSlash directory) = true := by
    rw [Bool.or_eq_true, String.isEmpty_iff, unclosed]
    simp [named]
  rw [join, if_neg (by simp [relative]), if_neg unready]

theorem pieces_ne_nil (characters : List Char) : pieces characters ≠ [] := by
  fun_cases pieces characters <;> simp [*]

/-- A slash keeps the pieces on both sides apart. -/
theorem pieces_append_slash (before after : List Char) :
    pieces (before ++ '/' :: after) = pieces before ++ pieces after := by
  fun_induction pieces before with
  | case1 => rfl
  | case2 rest inductionHypothesis =>
    rw [List.cons_append, pieces, inductionHypothesis, List.cons_append]
  | case3 character rest _ none => exact absurd none (pieces_ne_nil rest)
  | case4 character rest slash piece others split inductionHypothesis =>
    rw [List.cons_append, pieces, inductionHypothesis, split]
    · rfl
    · exact slash

/-- A relative path goes on from the names of the directory, however that is closed. -/
theorem names_join_of_relative (relative : isAbsolute path = false) :
    names (join directory path) = names directory ++ names path := by
  by_cases empty : directory = ""
  · rw [join_of_directory relative (.inl empty), empty, String.empty_append]
    rfl
  · cases closed : endsInSlash directory with
    | false =>
      rw [join_of_relative relative empty closed, names, String.toList_append,
        String.toList_append, List.append_assoc]
      change ((pieces (directory.toList ++ '/' :: path.toList)).filter _).map _ = _
      rw [pieces_append_slash, List.filter_append, List.map_append]
      rfl
    | true =>
      -- The piece behind the last slash is empty, so it is no name.
      obtain ⟨front, split⟩ : ∃ front, directory.toList = front ++ ['/'] := by
        rw [endsInSlash, decide_eq_true_eq, List.getLast?_eq_some_iff] at closed
        exact closed
      rw [join_of_directory relative (.inr closed), names, names, String.toList_append, split,
        List.append_assoc, List.singleton_append, pieces_append_slash, pieces_append_slash]
      simp [names, pieces]

end Join

/-- The absolute path of a location. -/
def ofLocation (location : Location) : String :=
  "/" ++ "/".intercalate location

/-- The directory in which a file or directory stands; the root stands in none. -/
def parent? : Location → Option Location
  | [] => none
  | location => some location.dropLast

end Path

end FlatSchema
