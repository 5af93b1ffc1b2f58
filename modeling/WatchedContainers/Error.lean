import WatchedContainers.Identity
import WatchedContainers.Text.Describe

/-!
# Errors

A vetoed modification is no error.  Errors are misuse of a handler, positions and values outside
a container or view, and views whose root is gone.
-/

namespace WatchedContainers

/-- Why an argument was rejected. -/
inductive Rejection where
  | noCapabilities (container : ContainerId)
  | reversedRange (start stop : Nat)
  | reversedSubSet
  | other (reason : String)
deriving DecidableEq

def Rejection.message : Rejection → String
  | .noCapabilities container => "container " ++ container.text ++ " exposes no capabilities"
  | .reversedRange start stop =>
    "view start " ++ toString start ++ " is after view end " ++ toString stop
  | .reversedSubSet => "sub-set start is after its end"
  | .other reason => reason

inductive Error where
  | alreadyBound
  | notBound
  | invalidArgument (why : Rejection)
  | unrecognizedListener (typeName : String)
  | notSupported (operation : String)
  | indexOutOfBounds (index size : Nat)
  | keyOutOfRange
  | noCurrentElement
  | viewDepthExceeded (limit : Nat)
  | rootDetached
deriving DecidableEq

/-- The place a rejected argument is blamed on. -/
structure Site where
  file : String
  line : Nat

namespace Error

def name : Error → String
  | alreadyBound => "AlreadyBound"
  | notBound => "NotBound"
  | invalidArgument _ => "InvalidArgument"
  | unrecognizedListener _ => "UnrecognizedListener"
  | notSupported _ => "NotSupported"
  | indexOutOfBounds _ _ => "IndexOutOfBounds"
  | keyOutOfRange => "KeyOutOfRange"
  | noCurrentElement => "NoCurrentElement"
  | viewDepthExceeded _ => "ViewDepthExceeded"
  | rootDetached => "RootDetached"

def message : Error → String
  | alreadyBound => "Handler is already bound to a container"
  | notBound => "Handler has not been bound to a container"
  | invalidArgument why => why.message
  | unrecognizedListener typeName => "Unrecognized listener type - " ++ typeName
  | notSupported operation => operation ++ " is not supported by this handler"
  | indexOutOfBounds index size =>
    "Index " ++ toString index ++ " is out of bounds for length " ++ toString size
  | keyOutOfRange => "Value is outside the range of this view"
  | noCurrentElement => "Iterator has no current element"
  | viewDepthExceeded limit =>
    "Reached the maximum view nesting depth allowed - " ++ toString limit
  | rootDetached => "The root handler of this view has been dropped"

/-- The message, with the site in front of a rejected argument. -/
def display (site : Site) : Error → String
  | invalidArgument why =>
    "Invalid argument - " ++ site.file ++ ":" ++ toString site.line ++ ": " ++ why.message
  | e => e.message

def debugText (site : Site) : Error → String
  | invalidArgument why =>
    Text.record "InvalidArgument"
      [("message", describe why.message), ("file", describe site.file),
        ("line", describe site.line)]
  | unrecognizedListener typeName => "UnrecognizedListener(" ++ describe typeName ++ ")"
  | notSupported operation => "NotSupported(" ++ describe operation ++ ")"
  | indexOutOfBounds index size =>
    Text.record "IndexOutOfBounds" [("index", describe index), ("len", describe size)]
  | viewDepthExceeded limit => "ViewDepthExceeded(" ++ describe limit ++ ")"
  | e => e.name

end Error

end WatchedContainers
