/-!
# Padding

A text is filled up to a width, counted in characters; a longer text stays as it is.
-/

namespace Settle

/-- Blanks after the text. -/
def padRight (width : Nat) (text : String) : String :=
  String.ofList (text.toList.rightpad width ' ')

/-- Blanks before the text. -/
def padLeft (width : Nat) (text : String) : String :=
  String.ofList (text.toList.leftpad width ' ')

end Settle
