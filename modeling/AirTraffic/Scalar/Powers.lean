/-!
# Powers of two and of ten
-/
namespace AirTraffic

def twoPow (n : Nat) : Nat := Nat.pow 2 n

def tenPow (n : Nat) : Nat := Nat.pow 10 n

end AirTraffic
