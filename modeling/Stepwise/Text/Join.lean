set_option autoImplicit false

/-! # Joining pieces of text -/

namespace Stepwise

/-- The pieces in order, with a separator between each two of them. -/
def joinWith (separator : String) : List String → String
  | [] => ""
  | [piece] => piece
  | piece :: rest => piece ++ separator ++ joinWith separator rest

theorem joinWith_cons_cons (separator piece next : String) (rest : List String) :
    joinWith separator (piece :: next :: rest) =
      piece ++ separator ++ joinWith separator (next :: rest) := rfl

end Stepwise
