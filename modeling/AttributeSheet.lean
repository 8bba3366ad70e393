import AttributeSheet.Attempt
import AttributeSheet.Block
import AttributeSheet.Block.Reader
import AttributeSheet.Cascade
import AttributeSheet.CascadeOrder
import AttributeSheet.CommandLine.Folder
import AttributeSheet.CommandLine.Options
import AttributeSheet.CommandLine.Run
import AttributeSheet.CommandLine.Usage
import AttributeSheet.Css.Attribute
import AttributeSheet.Css.Condition
import AttributeSheet.Css.Function
import AttributeSheet.Css.Lexeme
import AttributeSheet.Css.Members
import AttributeSheet.Css.Nth
import AttributeSheet.Css.Piece
import AttributeSheet.Css.SelectorList
import AttributeSheet.Declaration
import AttributeSheet.Host
import AttributeSheet.Host.Flat
import AttributeSheet.Host.Parsed
import AttributeSheet.Host.Tree
import AttributeSheet.Log
import AttributeSheet.Main
import AttributeSheet.Markup.Forest
import AttributeSheet.Markup.Nesting
import AttributeSheet.Markup.Page
import AttributeSheet.Markup.Place
import AttributeSheet.Markup.Prologue
import AttributeSheet.Markup.Reference
import AttributeSheet.Markup.Token
import AttributeSheet.Markup.Vocabulary
import AttributeSheet.Markup.Written
import AttributeSheet.OrderedMap
import AttributeSheet.Problem
import AttributeSheet.Selector
import AttributeSheet.Session
import AttributeSheet.Sheet
import AttributeSheet.Shelf
import AttributeSheet.Specificity
import AttributeSheet.Text.Blank
import AttributeSheet.Text.Comment
import AttributeSheet.Text.Letters
import AttributeSheet.Text.Newline
import AttributeSheet.Text.Printable
import AttributeSheet.Text.Quoted
import AttributeSheet.Proofs.ChainedSplit
import AttributeSheet.Proofs.MapWrites
import AttributeSheet.Proofs.Pieces
import AttributeSheet.Proofs.SheetReading
import AttributeSheet.Proofs.TokenShape
import AttributeSheet.Proofs.RoundTrip
import AttributeSheet.Proofs.StableOrder
import AttributeSheet.Proofs.RunMoves
import AttributeSheet.Proofs.ToldRuns
import AttributeSheet.Proofs.RunPairs
import AttributeSheet.Proofs.LastWrite
import AttributeSheet.Proofs.CascadeLaw
import AttributeSheet.Proofs.RejectedRules
import AttributeSheet.Proofs.TotalBoundary
import AttributeSheet.Proofs.ErrorRouting
import AttributeSheet.Proofs.FirstComment
import AttributeSheet.Proofs.CommentPlaces
import AttributeSheet.Proofs.JoinedSheets
import AttributeSheet.Proofs.RepeatedReading
import AttributeSheet.Proofs.MarkLayout
import AttributeSheet.Proofs.CountedPositions
import AttributeSheet.Proofs.GluedCounts
import AttributeSheet.Proofs.GrowingCounts
import AttributeSheet.Proofs.ModeAgreement
import AttributeSheet.Proofs.ClosingMarks
import AttributeSheet.Proofs.HostCalls
import AttributeSheet.Proofs.SortedBlocks
import AttributeSheet.Proofs.SourceOrder
import AttributeSheet.Proofs.AbortedRuns
import AttributeSheet.Proofs.EffectiveWrites
import AttributeSheet.Proofs.ShelfSorting
import AttributeSheet.Proofs.RepeatedSorts
import AttributeSheet.Proofs.NestingMoves
import AttributeSheet.Proofs.LawfulLibraries
import AttributeSheet.Proofs.FragmentContainer
import AttributeSheet.Proofs.FragmentPrinting
import AttributeSheet.Proofs.ForestLibrary
import AttributeSheet.Proofs.ContainerKept
import AttributeSheet.Proofs.PageOpening
import AttributeSheet.Proofs.ContentFirst
import AttributeSheet.Proofs.KeptDoctype
import AttributeSheet.Proofs.SelectorTexts
import AttributeSheet.Proofs.MapHistory
import AttributeSheet.Proofs.PropertyHistory
import AttributeSheet.Proofs.ShelfChanges
import AttributeSheet.Proofs.SelectorCoherence
import AttributeSheet.Proofs.ListContents
import AttributeSheet.Proofs.RepeatedApplying
import AttributeSheet.Proofs.DoctypeReading
import AttributeSheet.Proofs.TurnedListing
import AttributeSheet.Proofs.QuotedTexts
import AttributeSheet.Proofs.MessageSubjects
import AttributeSheet.Proofs.ReaderPlace
import AttributeSheet.Proofs.Patterns
import AttributeSheet.Proofs.DocumentPattern
import AttributeSheet.Proofs.DocumentScan
