/-
# Quoted character data

Character data stands between apostrophes, and an apostrophe inside it is written
twice.
-/

namespace FortranExpr
namespace Quoted

/-- Writes every apostrophe twice. -/
def double : List Char → List Char
  | [] => []
  | c :: rest => if c = '\'' then '\'' :: '\'' :: double rest else c :: double rest

/-- Character data between apostrophes. -/
def quote (data : List Char) : List Char := '\'' :: double data ++ ['\'']

end Quoted
end FortranExpr
