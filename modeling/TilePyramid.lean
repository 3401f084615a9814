import TilePyramid.Main
import TilePyramid.Proofs.Cache.Agreement
import TilePyramid.Proofs.Cache.Directory
import TilePyramid.Proofs.Cache.Failing
import TilePyramid.Proofs.Cache.Key
import TilePyramid.Proofs.Cache.Slots
import TilePyramid.Proofs.Cache.Stock
import TilePyramid.Proofs.Cache.Writers
import TilePyramid.Proofs.Command.Preparing
import TilePyramid.Proofs.Command.Purging
import TilePyramid.Proofs.Command.Rejections
import TilePyramid.Proofs.Command.Seeding
import TilePyramid.Proofs.Command.Targets
import TilePyramid.Proofs.Config.Fields
import TilePyramid.Proofs.Error.Causes
import TilePyramid.Proofs.Files.Clearing
import TilePyramid.Proofs.Files.Descent
import TilePyramid.Proofs.Files.Path
import TilePyramid.Proofs.Files.Reading
import TilePyramid.Proofs.Files.Route
import TilePyramid.Proofs.Files.Sound
import TilePyramid.Proofs.Files.Stock
import TilePyramid.Proofs.Geo.Reading
import TilePyramid.Proofs.Map.Address
import TilePyramid.Proofs.Operation.Alone
import TilePyramid.Proofs.Operation.Atomicity
import TilePyramid.Proofs.Operation.Containment
import TilePyramid.Proofs.Operation.Contract
import TilePyramid.Proofs.Operation.Failures
import TilePyramid.Proofs.Operation.Isolation
import TilePyramid.Proofs.Operation.Purging
import TilePyramid.Proofs.Operation.Resuming
import TilePyramid.Proofs.Operation.Seeded
import TilePyramid.Proofs.Operation.Seeding
import TilePyramid.Proofs.Operation.Targets
import TilePyramid.Proofs.Operation.Telling
import TilePyramid.Proofs.Pool.Completeness
import TilePyramid.Proofs.Pool.Contract
import TilePyramid.Proofs.Pool.Course
import TilePyramid.Proofs.Pool.Ending
import TilePyramid.Proofs.Pool.History
import TilePyramid.Proofs.Pool.Jobs
import TilePyramid.Proofs.Pool.Liveness
import TilePyramid.Proofs.Pool.OpenInput
import TilePyramid.Proofs.Pool.Schedule
import TilePyramid.Proofs.Pool.Sequence
import TilePyramid.Proofs.Pool.ShortCircuit
import TilePyramid.Proofs.Pool.Shutdown
import TilePyramid.Proofs.Pool.Situations
import TilePyramid.Proofs.Pool.Succession
import TilePyramid.Proofs.Pool.Unattended
import TilePyramid.Proofs.Stream.Corners
import TilePyramid.Proofs.Stream.Course
import TilePyramid.Proofs.Stream.Delivery
import TilePyramid.Proofs.Stream.History
import TilePyramid.Proofs.Stream.Lines
import TilePyramid.Proofs.Stream.Naming
import TilePyramid.Proofs.Stream.Readout
import TilePyramid.Proofs.Stream.Regions
import TilePyramid.Proofs.Stream.Stopping
import TilePyramid.Proofs.Text.Encoding
import TilePyramid.Proofs.Text.Grammar
import TilePyramid.Proofs.Text.Marks
import TilePyramid.Proofs.Tile.Family
import TilePyramid.Proofs.Tile.Names
import TilePyramid.Proofs.Tile.Words
import TilePyramid.Proofs.World.Asking
import TilePyramid.Proofs.World.Conduct
import TilePyramid.Proofs.World.Performing
import TilePyramid.Proofs.World.Sources
import TilePyramid.Stream.Generators
import TilePyramid.Stream.Session
import TilePyramid.World
