/-!
# Calls by keyword

How named arguments meet the parameters of a function. Every argument has to name a parameter, and
every parameter without a default has to be named; the first argument that names none is at fault
before any parameter that was left out.
-/

namespace Stratum

/-- A parameter: one that an argument may name, and whether it can be left out. -/
structure Parameter where
  name : String
  optional : Bool
  keywordOnly : Bool
  deriving DecidableEq, Repr

/-- A function by its name and parameters. One that belongs to an object has a receiver, which is no
parameter but takes up its name. -/
structure Signature where
  name : String
  receiver : Option String
  parameters : List Parameter
  deriving DecidableEq, Repr

/-- Why arguments do not fit. -/
inductive CallFault
  | keywordNotText
  | unexpected (function argument : String)
  | repeated (function argument : String)
  | missing (function : String) (first : String) (others : List String) (keywordOnly : Bool)
  deriving DecidableEq, Repr

namespace CallFault

/-- A name in quotation marks. -/
private def marked (name : String) : String := "'" ++ name ++ "'"

/-- Names in quotation marks, the last two joined by a word. -/
def nameList (first : String) : List String → String
  | [] => marked first
  | [second] => marked first ++ " and " ++ marked second
  | second :: rest => marked first ++ ", " ++ tail second rest
where
  /-- The names after a comma. -/
  tail (name : String) : List String → String
    | [] => "and " ++ marked name
    | next :: rest => marked name ++ ", " ++ tail next rest

/-- The words for arguments that do not fit. -/
def message : CallFault → String
  | keywordNotText => "keywords must be strings"
  | unexpected function argument =>
    function ++ "() got an unexpected keyword argument " ++ marked argument
  | repeated function argument =>
    function ++ "() got multiple values for argument " ++ marked argument
  | missing function first others keywordOnly =>
    function ++ "() missing " ++ toString (others.length + 1) ++ " required " ++
      (if keywordOnly then "keyword-only" else "positional") ++
      (if others.isEmpty then " argument: " else " arguments: ") ++ nameList first others

end CallFault

namespace Signature

/-- Whether a name is that of a parameter. -/
def accepts (s : Signature) (name : String) : Bool := s.parameters.any (·.name == name)

/-- The fault of the first argument that names no parameter. -/
def misnamed? (s : Signature) (names : List String) : Option CallFault :=
  (names.find? (!s.accepts ·)).map fun name =>
    if s.receiver = some name then .repeated s.name name else .unexpected s.name name

/-- The fault of the parameters of one kind that need an argument and have none. -/
def missing? (s : Signature) (keywordOnly : Bool) (names : List String) : Option CallFault :=
  let left := s.parameters.filter fun p =>
    p.keywordOnly == keywordOnly && !p.optional && !names.contains p.name
  match left.map (·.name) with
  | [] => none
  | first :: others => some (.missing s.name first others keywordOnly)

/-- Why a call with arguments of these names fails, if it does. -/
def fault? (s : Signature) (names : List String) : Option CallFault :=
  ((s.misnamed? names).or (s.missing? false names)).or (s.missing? true names)

end Signature
end Stratum
