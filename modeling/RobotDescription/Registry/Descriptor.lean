import RobotDescription.Description.Directive
import RobotDescription.Description.Sink

/-!
# Descriptors

What is needed to refer to an entity's template: the package and file that define its macro, and
the arguments to call it with.
-/

namespace RobotDescription

def platformPackage : String := "clearpath_platform_description"

def mountsPackage : String := "clearpath_mounts_description"

/-- The reference to an entity's template. The path is a directory of the package and ends in a
slash. -/
structure Descriptor where
  package : String
  file : String
  path : String
  macroName : String
  arguments : Arguments
  origin : Option Origin := none
deriving DecidableEq

namespace Descriptor

def blocks (descriptor : Descriptor) : List Block :=
  descriptor.origin.toList.map .origin

def inclusion (descriptor : Descriptor) : Directive :=
  .inclusion descriptor.package descriptor.file descriptor.path

def call (descriptor : Descriptor) : Directive :=
  .call descriptor.macroName descriptor.arguments descriptor.blocks

end Descriptor

/-- An entity of a configuration that no registry knows. -/
inductive Unsupported where
  | platform (model : String)
  | decoration (chassis kind : String)
  | mountModel (mount model : String)
deriving DecidableEq, Repr

def Unsupported.message : Unsupported → String
  | .platform model => "unsupported platform model '" ++ model ++ "'"
  | .decoration chassis kind =>
    "decoration '" ++ kind ++ "' is not supported on platform '" ++ chassis ++ "'"
  | .mountModel mount model => "mount '" ++ mount ++ "' uses unsupported model '" ++ model ++ "'"

/-- Why no description can be given: of an entity, or of a whole configuration into a sink. -/
inductive GenerationError where
  | unsupported (entity : Unsupported)
  | sink (error : SinkError)
  | fault (fault : Fault)
deriving DecidableEq, Repr

def GenerationError.message : GenerationError → String
  | .unsupported e => e.message
  | .sink e => e.message
  | .fault f => f.message

end RobotDescription
