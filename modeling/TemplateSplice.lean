import TemplateSplice.Command.Run
import TemplateSplice.Host.Machine
import TemplateSplice.Main
import TemplateSplice.Merge.Shelf
import TemplateSplice.Proofs.Command.Exit
import TemplateSplice.Proofs.Command.Inspect
import TemplateSplice.Proofs.Host.Answer
import TemplateSplice.Proofs.Host.Look
import TemplateSplice.Proofs.Host.Merge
import TemplateSplice.Proofs.Marker.LineEnds
import TemplateSplice.Proofs.Merge.Dependencies
import TemplateSplice.Proofs.Merge.Failure
import TemplateSplice.Proofs.Merge.LineEnds
import TemplateSplice.Proofs.Merge.Occurrences
import TemplateSplice.Proofs.Merge.Report
import TemplateSplice.Proofs.Merge.Sections
import TemplateSplice.Proofs.Schema.Names
import TemplateSplice.Proofs.Schema.Uniqueness
import TemplateSplice.Proofs.Section.Place
import TemplateSplice.Proofs.Section.Partition
import TemplateSplice.Proofs.Settings.Override
import TemplateSplice.Yaml.Printer
import TemplateSplice.Proofs.Settings.Accepted
import TemplateSplice.Proofs.Merge.Checked
import TemplateSplice.Proofs.Settings.Lines
import TemplateSplice.Proofs.Command.Encodable
import TemplateSplice.Proofs.Path.Below
import TemplateSplice.Proofs.Merge.Relocation
import TemplateSplice.Proofs.Section.LineStarts
import TemplateSplice.Proofs.Command.Listing
import TemplateSplice.Proofs.Settings.Recased
import TemplateSplice.Proofs.Section.Accumulation
import TemplateSplice.Proofs.Marker.Written
import TemplateSplice.Proofs.Path.Normal
import TemplateSplice.Proofs.Host.Chain
import TemplateSplice.Proofs.Settings.Stopping
import TemplateSplice.Proofs.Settings.Idempotence
import TemplateSplice.Proofs.Encoding.Decoding
import TemplateSplice.Proofs.Host.ReadBack
import TemplateSplice.Proofs.Disk.Directories
import TemplateSplice.Proofs.Host.AllOrNothing
import TemplateSplice.Proofs.Json.Strings
import TemplateSplice.Proofs.Json.RoundTrip
import TemplateSplice.Proofs.Settings.Coercion
import TemplateSplice.Proofs.Path.Canonical
import TemplateSplice.Proofs.Host.Handlers
