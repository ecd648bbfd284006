/-!
Powers. The exponent is a natural number, and a power is taken the way the numbers themselves come
with it, whatever other structure is known of them.
-/

set_option autoImplicit false

attribute [instance (2000), default_instance (20000)] instPowNat
