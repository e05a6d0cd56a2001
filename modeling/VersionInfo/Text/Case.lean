/-!
# Comparison without regard to case

Two texts are the same ignoring case when they agree after every ASCII capital is made small;
other characters are compared as they are.
-/

namespace VersionInfo.Text

/-- Equal but for the case of ASCII letters. -/
def SameIgnoringCase (a b : String) : Prop :=
  a.toList.map Char.toLower = b.toList.map Char.toLower

instance (a b : String) : Decidable (SameIgnoringCase a b) :=
  inferInstanceAs (Decidable (_ = _))

end VersionInfo.Text
