/-!
# Alignment

Text brought to a minimum width. Text that is already wide enough is kept.
-/

namespace DemandPaging.Text

/-- `s` moved to the right edge of a field of `width` characters. -/
def alignRight (width : Nat) (fill : Char) (s : String) : String :=
  String.ofList (List.replicate (width - s.length) fill ++ s.toList)

/-- `s` moved to the left edge of a field of `width` characters. -/
def alignLeft (width : Nat) (fill : Char) (s : String) : String :=
  String.ofList (s.toList ++ List.replicate (width - s.length) fill)

end DemandPaging.Text
