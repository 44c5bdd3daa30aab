/-!
Powers of the two bases in which numbers are held and written.
-/
namespace CommandChain

def powerOfTwo (n : Nat) : Nat := Nat.pow 2 n

def powerOfTen (n : Nat) : Nat := Nat.pow 10 n

end CommandChain
