/-!
# Failures of the operating system

What can go wrong below the protocols: connecting, opening files and ports, reading streams.
-/

namespace HomeMetering

/-- A failed call to the system, or a stream that ended. -/
inductive IoFailure where
  /-- The stream ended where more had to come. -/
  | endOfStream
  /-- The peer closed the connection in the middle of a frame. -/
  | earlyEnd
  | refused
  | unreachable
  | notFound
  | notADirectory
  | isADirectory
  | notUtf8
  | other (text : String)
  deriving Repr, DecidableEq

namespace IoFailure

def message : IoFailure → String
  | endOfStream => "unexpected end of file"
  | earlyEnd => "early eof"
  | refused => "Connection refused (os error 111)"
  | unreachable => "Network is unreachable (os error 101)"
  | notFound => "No such file or directory (os error 2)"
  | notADirectory => "Not a directory (os error 20)"
  | isADirectory => "Is a directory (os error 21)"
  | notUtf8 => "stream did not contain valid UTF-8"
  | other text => text

end IoFailure

end HomeMetering
