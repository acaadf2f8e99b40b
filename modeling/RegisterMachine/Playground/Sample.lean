import RegisterMachine.Numeral
import RegisterMachine.Table

/-!
# Sample programs

Programs to begin with, each under a name.

**Contents.**
* `Sample.euclid`: the greatest common divisor of two given integers.
* `Sample.all`, `Sample.find`: all samples, and the sample with a name.
-/

namespace RegisterMachine
namespace Sample

/-- A text from its lines. -/
def ofLines (lines : List String) : Text :=
  Text.unlines (lines.map String.toList)

/-- The factorial of five. -/
def factorial : Text :=
  ofLines
    ["mov   a, 5", "mov   b, a", "dec   a", "loop:", "mul   b, a      ; b *= a",
      "dec   a", "cmp   a, 1", "jne   loop", "msg   '(5!) = ', b", "end"]

/-- A greeting. -/
def greeting : Text :=
  ofLines ["msg 'Hello, world!'", "end"]

/-- A call of a subroutine. -/
def subroutine : Text :=
  ofLines
    ["mov a, 7", "call square", "msg 'a^2 = ', a", "end", "", "square:", "mul a, a", "ret"]

/-- A program that runs past its last line. -/
def endless : Text :=
  ofLines ["mov a, 1", "msg 'this never becomes output'"]

/-- The factorial of five, with its comments. -/
def factorialFile : Text :=
  ofLines
    ["; factorial.asm - computes 5! with a countdown loop", "    mov a, 5", "    mov b, a",
      "    dec a", "loop:", "    mul b, a        ; b *= a", "    dec a", "    cmp a, 1",
      "    jne loop", "    msg '(5!) = ', b", "    end", ""]

/-- The tenth Fibonacci number by nested calls. -/
def fibonacciFile : Text :=
  ofLines
    ["; fibonacci.asm - prints the 10th Fibonacci number using nested calls", "    mov n, 10",
      "    call fib", "    msg 'fib(', n, ') = ', r", "    end", "", "fib:", "    mov r, 0",
      "    mov next, 1", "    mov i, 0", "fib_loop:", "    cmp i, n", "    jge fib_done",
      "    call fib_step", "    inc i", "    jmp fib_loop", "fib_done:", "    ret", "",
      "fib_step:", "    mov t, next", "    add next, r", "    mov r, t", "    ret", ""]

/-- Euclid's algorithm on two given integers; the remainder is computed by a
subroutine of its own. -/
def euclid (a b : Int) : Text :=
  ofLines
    ["; gcd.asm - greatest common divisor of 81 and 153 by Euclid's algorithm",
      "    mov a, " ++ Numeral.str a, "    mov b, " ++ Numeral.str b, "    call gcd",
      "    msg 'gcd(81, 153) = ', a", "    end", "", "gcd:", "    cmp b, 0", "    je done",
      "    mov c, a", "    call mod        ; c = a mod b", "    mov a, b", "    mov b, c",
      "    jmp gcd", "done:", "    ret", "", "mod:", "    mov t, c", "    div t, b",
      "    mul t, b", "    sub c, t", "    ret", ""]

/-- A greeting, with its comments. -/
def greetingFile : Text :=
  ofLines
    ["; hello.asm", "MSG 'Hello, world!'   ; quoted text keeps its comma and spaces", "END", ""]

/-- All samples, by name. -/
def all : Table Text :=
  [("Factorial 5!".toList, factorial), ("Hello".toList, greeting),
    ("Call/Ret".toList, subroutine), ("No END".toList, endless), ("Custom".toList, []),
    ("factorial.asm".toList, factorialFile), ("fibonacci.asm".toList, fibonacciFile),
    ("gcd.asm".toList, euclid 81 153), ("hello.asm".toList, greetingFile)]

/-- The sample with a name; an unknown name gives the empty program. -/
def find (name : Text) : Text :=
  (all.get? name).getD []

end Sample
end RegisterMachine
