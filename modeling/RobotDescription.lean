import RobotDescription.Command.Run
import RobotDescription.Command.Text
import RobotDescription.Config.Load
import RobotDescription.Generation.Run
import RobotDescription.Main
import RobotDescription.Registry.Listing
import RobotDescription.Xacro.File
import RobotDescription.Xacro.Stream
import RobotDescription.Proofs.Generation.Layout
import RobotDescription.Proofs.Generation.Completion
import RobotDescription.Proofs.Generation.ParameterNames
import RobotDescription.Proofs.Sink.Calls
import RobotDescription.Proofs.Sink.Documents
import RobotDescription.Proofs.Xacro.Images
import RobotDescription.Proofs.Xacro.Agreement
import RobotDescription.Proofs.Xacro.Reader
import RobotDescription.Proofs.Xacro.Reading
import RobotDescription.Proofs.Xacro.Escaping
import RobotDescription.Proofs.Xacro.ReadBack
import RobotDescription.Proofs.Config.Acceptance
import RobotDescription.Proofs.Config.Report
import RobotDescription.Proofs.Sink.Faults
import RobotDescription.Proofs.Xacro.Safety
import RobotDescription.Proofs.Storage.Files
import RobotDescription.Proofs.Storage.Places
import RobotDescription.Proofs.Xacro.Publishing
import RobotDescription.Proofs.Command.Modes
import RobotDescription.Proofs.Xacro.Drafts
import RobotDescription.Proofs.Xacro.Sessions
import RobotDescription.Proofs.Xacro.Ledgers
import RobotDescription.Proofs.Xacro.Targets
import RobotDescription.Proofs.Description.Arguments
import RobotDescription.Proofs.Generation.Success
import RobotDescription.Proofs.Generation.MountNames
import RobotDescription.Proofs.Registry.Lookup
import RobotDescription.Proofs.Registry.Offers
import RobotDescription.Proofs.Generation.Support
import RobotDescription.Proofs.Storage.Extensions
import RobotDescription.Proofs.Xacro.OutputPaths
import RobotDescription.Proofs.Generation.Disabling
import RobotDescription.Proofs.Generation.Descriptors
import RobotDescription.Proofs.Xacro.Characters
import RobotDescription.Proofs.Xacro.Passes
import RobotDescription.Proofs.Xacro.Normalization
import RobotDescription.Proofs.Decimal.Rounding
import RobotDescription.Proofs.Decimal.Shortest
import RobotDescription.Proofs.Decimal.ReadBack
import RobotDescription.Proofs.Text.ByteOrder
import RobotDescription.Proofs.Description.InsertionOrder
import RobotDescription.Proofs.Generation.ResolvedArguments
import RobotDescription.Proofs.Xacro.Poses
import RobotDescription.Proofs.Config.Slots
import RobotDescription.Proofs.Config.Parameters
import RobotDescription.Proofs.Config.Rearranging
import RobotDescription.Proofs.Yaml.Following
import RobotDescription.Proofs.Yaml.Nodes
import RobotDescription.Proofs.Yaml.Fields
import RobotDescription.Proofs.Yaml.Parts
import RobotDescription.Proofs.Yaml.Editing
import RobotDescription.Proofs.Toml.Parts
import RobotDescription.Proofs.Toml.Editing
import RobotDescription.Proofs.Decimal.Literals
import RobotDescription.Proofs.Yaml.Scalars
import RobotDescription.Proofs.Config.Spelling
import RobotDescription.Proofs.Config.Filling
import RobotDescription.Proofs.Yaml.Writing
import RobotDescription.Proofs.Toml.Numbers
import RobotDescription.Proofs.Toml.Writing
import RobotDescription.Proofs.Config.Trees
import RobotDescription.Proofs.Decimal.Denoting
import RobotDescription.Proofs.Xacro.Comments
import RobotDescription.Proofs.Xacro.Replays
import RobotDescription.Proofs.Decimal.Nearest
import RobotDescription.Proofs.Decimal.Fewest
import RobotDescription.Proofs.Decimal.Lossless
import RobotDescription.Proofs.Config.Entries
import RobotDescription.Proofs.Yaml.Parameters
import RobotDescription.Proofs.Toml.Parameters
import RobotDescription.Proofs.Toml.Literals
import RobotDescription.Proofs.Generation.Bearers
import RobotDescription.Proofs.Config.Integers
