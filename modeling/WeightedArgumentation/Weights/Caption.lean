import WeightedArgumentation.Decimal.Layout
import WeightedArgumentation.Weights.Basic

/-!
# The slider in words

The caption of a slider position names the side it favours with that side's
weight to one decimal place; halfway there is none to name.  A position by
itself is written positionally, however small it is, and without a point when
it is integral.
-/

namespace WeightedArgumentation.Slider

/-- Positions are written without an exponent, and a tie goes upward. -/
def layout : Decimal.Layout where
  plainFrom := none
  plainBelow := none
  pointZero := false
  tie := .upward

/-- A slider position as text. -/
def text (slider : Slider Float) : String :=
  String.ofList (layout.numeral slider.value).text

/-- A weight with the name of its side. -/
def sideCaption (side : String) (weight : Float) : String :=
  side ++ " ×" ++ String.ofList (Decimal.fixedPlaces 1 weight).text

/-- The caption of a slider position. -/
def caption (slider : Slider Float) : String :=
  if slider.value == 0.5 then "Balanced"
  else if slider.value < 0.5 then sideCaption "Eco" slider.economicWeight
  else sideCaption "Env" slider.environmentalWeight

end WeightedArgumentation.Slider
