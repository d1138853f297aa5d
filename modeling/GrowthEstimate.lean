import GrowthEstimate.Proofs.AddedLines
import GrowthEstimate.Proofs.BlankLines
import GrowthEstimate.Proofs.BracedLoops
import GrowthEstimate.Proofs.CallPlaces
import GrowthEstimate.Proofs.CsvReading
import GrowthEstimate.Proofs.Decorators
import GrowthEstimate.Proofs.FileNames
import GrowthEstimate.Proofs.HeaderCalls
import GrowthEstimate.Proofs.IndentedLoops
import GrowthEstimate.Proofs.LanguageTags
import GrowthEstimate.Proofs.LineNumbers
import GrowthEstimate.Proofs.LoopInsertion
import GrowthEstimate.Proofs.MarkdownReading
import GrowthEstimate.Proofs.NestedFunctions
import GrowthEstimate.Proofs.OneLineBodies
import GrowthEstimate.Proofs.Origins
import GrowthEstimate.Proofs.PageReading
import GrowthEstimate.Proofs.Placeholder
import GrowthEstimate.Proofs.Respacing
import GrowthEstimate.Proofs.SameReport
import GrowthEstimate.Proofs.SeenLines
import GrowthEstimate.Proofs.SessionRuns
import GrowthEstimate.Service.Settings
