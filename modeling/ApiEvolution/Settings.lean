import ApiEvolution.Decimal.Reader
import ApiEvolution.Similarity.Blend
import ApiEvolution.Text.Blank

/-!
# Settings

What a comparison and a migration can be told: the least score that keeps a pair, the part of the
way by which the score of an overriding member is moved, and the author who signs migrated
annotations. Each can be given as a text; one that makes no sense leaves the default.
-/

namespace ApiEvolution

open Similarity

/-- The number in the unit interval that a text gives, a number outside moved to the nearer end. -/
def unitOfText (fallback : Float) : Option String → Float
  | some text => ((Decimal.read? (Text.trim text.toList)).map clampUnit).getD fallback
  | none => fallback

/-- The settings of a comparison. -/
structure Settings where
  threshold : Float := 0.6
  boost : Float := 0.5

namespace Settings

/-- The settings with a threshold, which is kept within the unit interval. -/
def withThreshold (threshold : Float) : Settings :=
  { threshold := clampUnit threshold }

/-- The settings that texts give. -/
def ofTexts (threshold boost : Option String) : Settings :=
  { threshold := unitOfText ({} : Settings).threshold threshold
    boost := unitOfText ({} : Settings).boost boost }

end Settings

/-- The author of migrated annotations where none is given. -/
def defaultMigrationAuthor : String := "$migration$"

/-- The author that a text gives. -/
def authorOfText : Option String → String
  | some text =>
    let trimmed := Text.trim text.toList
    if trimmed.isEmpty then defaultMigrationAuthor else String.ofList trimmed
  | none => defaultMigrationAuthor

end ApiEvolution
