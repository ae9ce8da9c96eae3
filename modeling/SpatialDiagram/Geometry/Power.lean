/-!
# Powers of floating-point numbers

The power function of the platform rounds its result without being exact, so a
square taken through it may differ in the last place from a product.
-/

namespace SpatialDiagram

/-- A power of floating-point numbers. -/
@[noinline] def power (base exponent : Float) : Float := Float.pow base exponent

end SpatialDiagram
