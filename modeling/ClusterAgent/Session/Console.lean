/-
  ClusterAgent/Session/Console.lean
  =================================
  **What a terminal makes of the bytes that pass it.**

  A line feed leaves as carriage return and line feed.  What is typed is echoed: a
  carriage return counts as a line feed, and a control character other than tab and
  line feed shows as a caret and a letter.  The character that ends input shows nothing.
-/
import ClusterAgent.Cluster.Call

namespace ClusterAgent.Session.Console

def shown (b : UInt8) : List UInt8 :=
  if b = 10 then [13, 10] else [b]

/-- How bytes that a program writes leave the terminal. -/
def output (bytes : List UInt8) : List UInt8 :=
  bytes.flatMap shown

def echoed (b : UInt8) : List UInt8 :=
  if b = 10 ∨ b = 13 then [13, 10]
  else if b = 4 then []
  else if b < 32 ∧ b ≠ 9 then [94, b + 64]
  else [b]

/-- How typed bytes are echoed. -/
def echo (bytes : List UInt8) : List UInt8 :=
  bytes.flatMap echoed

/-- What a program prints that is asked for the size of its terminal. -/
def report (size : Cluster.TerminalSize) : List UInt8 :=
  (toString size.rows ++ "x" ++ toString size.cols).toUTF8.toList

end ClusterAgent.Session.Console
